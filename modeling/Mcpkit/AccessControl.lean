import Mcpkit.RegistryModel

/-!
Role-based access control. The permission that a tool needs is read off the end of its name, from
a table that the registry's own table of write suffixes does not agree with; what the definition
says of the tool is not asked.
-/
namespace Mcpkit.AccessControl
open GoMaps RegistryModel List Finmap Option
variable {C R O W H : Type}

/-! ### Roles and permissions -/

/-- A role; `other` is a string that names none of the three. -/
inductive Role where
  | admin
  | operator
  | readonly
  | other (name : String)
  deriving DecidableEq

inductive Permission where
  | read
  | write
  | admin
  | delete
  deriving DecidableEq

def rolePermissions : Role → List Permission
  | .admin => [.read,.write,.admin,.delete]
  | .operator => [.read,.write]
  | .readonly => [.read]
  | .other _ => []

def defaultToolPermissions : List (String × Permission) :=
  [("_status",.read),("_list",.read),("_get",.read),("_health",.read),("_whoami",.read),("_discover",.read),
    ("_sync",.write),("_create",.write),("_update",.write),("_add",.write),("_restart",.write),("_trigger",.write),
    ("_delete",.admin),("_reset",.admin),("_rotate",.admin)]

structure RBACConfig where
  userRoles : GoMap (List Role)
  defaultRole : Role

structure RBAC where
  userRoles : GoMap (List Role)
  toolOverrides : GoMap Permission
  defaultRole : Role

def newRBAC (config : RBACConfig) : RBAC :=
  ⟨config.userRoles,∅,if config.defaultRole = .other "" then .readonly else config.defaultRole⟩

def RBAC.setUserRoles (r : RBAC) (username : String) (roles : List Role) : RBAC :=
  { r with userRoles := r.userRoles.insert username roles }

def RBAC.getUserRoles (r : RBAC) (username : String) : List Role :=
  match r.userRoles.lookup username with
  | some roles => roles
  | none =>
    match r.userRoles.lookup "default" with
    | some roles => roles
    | none => [r.defaultRole]

def RBAC.hasPermission (r : RBAC) (username : String) (perm : Permission) : Bool :=
  (r.getUserRoles username).any fun role => (rolePermissions role).contains perm

def hasSuffix (name suffix : String) : Bool := suffix.toList.isSuffixOf name.toList

variable (order : List (String × Permission))

/-- `GetToolPermission`, which goes through the default permissions in the order of a map. -/
def RBAC.getToolPermission (r : RBAC) (toolName : String) : Permission :=
  match r.toolOverrides.lookup toolName with
  | some perm => perm
  | none =>
    match order.find? (fun entry => hasSuffix toolName entry.1) with
    | some entry => entry.2
    | none => .read

def RBAC.canAccessTool (r : RBAC) (username toolName : String) : Bool :=
  r.hasPermission username (r.getToolPermission order toolName)

/-! ### The middleware -/

abbrev ToolHandlerFunc (C R O W : Type) := C → R → W → O × W

abbrev AuditLogger (W : Type) := String → String → String → W → W

variable (makeErrorResult : String → O) (order : List (String × Permission)) (rbac : RBAC)

variable (logger : Option (AuditLogger W)) (userFunc : Option (C → String))

variable (name : String)

def rbacMiddleware
    (_td : ToolDefinition H) (next : ToolHandlerFunc C R O W) : ToolHandlerFunc C R O W :=
  fun ctx request w =>
    let user := match userFunc with
      | some userOf => userOf ctx
      | none => ""
    if rbac.canAccessTool order user name then next ctx request w
    else
      (makeErrorResult ("[PERMISSION_DENIED] access denied for tool " ++ name),
        match logger with
        | some logAccessDenied => logAccessDenied user name "insufficient permissions" w
        | none => w)

def counted (handler : ToolHandlerFunc C R O W) : ToolHandlerFunc C R O (W × Nat) :=
  fun ctx request w => ((handler ctx request w.1).1,((handler ctx request w.1).2,w.2+1))

def beside (logger : AuditLogger W) : AuditLogger (W × Nat) :=
  fun user tool reason w => (logger user tool reason w.1,w.2)

variable (td : ToolDefinition (ToolHandlerFunc C R O W))

def runs
    (ctx : C) (request : R) (w : W) : Nat :=
  (rbacMiddleware makeErrorResult order rbac (logger.map beside) userFunc name td (counted td.handler) ctx request
    (w,0)).2.2

def userOf (ctx : C) : String := (userFunc.map fun user => user ctx).getD ""

theorem runs_eq
    (ctx : C) (request : R) (w : W) :
    runs makeErrorResult order rbac logger userFunc name td ctx request w =
      if rbac.canAccessTool order (userOf userFunc ctx) name then 1 else 0 := by
  unfold runs rbacMiddleware userOf
  cases userFunc <;> cases logger <;> simp only [map_some,map_none,getD_some,getD_none] <;>
    split <;> rfl

/-! ### Which permission a name needs -/

def guardedSuffixes : List String := (defaultToolPermissions.filter fun entry => entry.2 ≠ .read).map (·.1)

example : guardedSuffixes =
    ["_sync","_create","_update","_add","_restart","_trigger","_delete","_reset","_rotate"] := by decide

def guarded : Bool := guardedSuffixes.any (hasSuffix name)

theorem guarded_iff {name : String} :
    guarded name = true ↔ ∃ entry ∈ defaultToolPermissions, entry.2 ≠ .read ∧ hasSuffix name entry.1 = true := by
  unfold guarded guardedSuffixes
  simp

theorem suffixes_apart : ∀ entry ∈ defaultToolPermissions, ∀ entry' ∈ defaultToolPermissions,
    entry.1.toList.isSuffixOf entry'.1.toList = true → entry = entry' := by
  decide

theorem suffix_unique {name : String} {entry entry' : String × Permission} (known : entry ∈ defaultToolPermissions)
    (known' : entry' ∈ defaultToolPermissions) (ends : hasSuffix name entry.1 = true)
    (ends' : hasSuffix name entry'.1 = true) : entry = entry' := by
  unfold hasSuffix at ends ends'
  rw [isSuffixOf_iff_suffix] at ends ends'
  rcases suffix_or_suffix_of_suffix ends ends' with inner | inner
  · exact suffixes_apart entry known entry' known' (List.isSuffixOf_iff_suffix.mpr inner)
  · exact (suffixes_apart entry' known' entry known (List.isSuffixOf_iff_suffix.mpr inner)).symm

theorem getToolPermission_read_iff {order : List (String × Permission)} {rbac : RBAC} {name : String}
    (iterates : order.Perm defaultToolPermissions) (plain : rbac.toolOverrides = ∅) :
    rbac.getToolPermission order name = .read ↔ guarded name = false := by
  rw [← Bool.not_eq_true,guarded_iff,RBAC.getToolPermission,plain,lookup_empty]
  cases found : order.find? (fun entry => hasSuffix name entry.1) with
  | none =>
    refine iff_of_true rfl ?_
    rintro ⟨entry,known,-,ends⟩
    exact absurd ends (List.find?_eq_none.mp found entry (iterates.mem_iff.mpr known))
  | some entry =>
    have known := iterates.mem_iff.mp (mem_of_find?_eq_some found)
    have ends := find?_some found
    constructor
    · rintro reads ⟨entry',known',other,ends'⟩
      exact other (suffix_unique known known' ends ends' ▸ reads)
    · intro open'
      by_contra other
      exact open' ⟨entry,known,other,ends⟩

/-! ### What a user without write permission can do -/

theorem grants_without_write {role : Role} (noWrite : Permission.write ∉ rolePermissions role) (perm : Permission) :
    perm ∈ rolePermissions role ↔ perm = .read ∧ role = .readonly := by
  cases role <;> simp_all [rolePermissions]

theorem hasPermission_iff {rbac : RBAC} {user : String} {perm : Permission} :
    rbac.hasPermission user perm = true ↔ ∃ role ∈ rbac.getUserRoles user, perm ∈ rolePermissions role := by
  simp [RBAC.hasPermission]

theorem hasPermission_without_write {rbac : RBAC} {user : String} (noWrite : rbac.hasPermission user .write = false)
    (perm : Permission) :
    rbac.hasPermission user perm = true ↔ perm = .read ∧ .readonly ∈ rbac.getUserRoles user := by
  have none : ∀ role ∈ rbac.getUserRoles user, Permission.write ∉ rolePermissions role := by
    intro role has grants
    rw [hasPermission_iff.mpr ⟨role,has,grants⟩] at noWrite
    cases noWrite
  rw [hasPermission_iff]
  constructor
  · rintro ⟨role,has,grants⟩
    obtain ⟨reads,rfl⟩ := (grants_without_write (none role has) perm).mp grants
    exact ⟨reads,has⟩
  · rintro ⟨reads,has⟩
    exact ⟨.readonly,has,(grants_without_write (none _ has) perm).mpr ⟨reads,rfl⟩⟩

/-- Through the middleware, a user without write permission runs the handler of a registered
    write tool exactly when its name has no guarded suffix and they may read. -/
theorem write_tool_kept_iff (makeErrorResult : String → O) (config : Config)
    (tools : List (ToolDefinition (ToolHandlerFunc C R O W))) {order : List (String × Permission)}
    (iterates : order.Perm defaultToolPermissions) {rbac : RBAC} (plain : rbac.toolOverrides = ∅)
    (logger : Option (AuditLogger W)) (userFunc : Option (C → String)) (ctx : C)
    (noWrite : rbac.hasPermission (userOf userFunc ctx) .write = false) :
    ∀ name td, ((newDynamicRegistry config).registerModule tools).tools.lookup name = some td → td.isWrite = true →
      ∀ request w, runs makeErrorResult order rbac logger userFunc name td ctx request w = 0 ↔
        guarded name = true ∨ .readonly ∉ rbac.getUserRoles (userOf userFunc ctx) := by
  intro name td _ _ request w
  have access : rbac.canAccessTool order (userOf userFunc ctx) name = true ↔
      guarded name = false ∧ .readonly ∈ rbac.getUserRoles (userOf userFunc ctx) := by
    rw [RBAC.canAccessTool,hasPermission_without_write noWrite,getToolPermission_read_iff iterates plain]
  have idle : runs makeErrorResult order rbac logger userFunc name td ctx request w = 0 ↔
      ¬ rbac.canAccessTool order (userOf userFunc ctx) name = true := by
    rw [runs_eq]
    cases rbac.canAccessTool order (userOf userFunc ctx) name <;> simp
  rw [idle,access,not_and_or,Bool.not_eq_false]

def answering (answer : Nat) : ToolDefinition (ToolHandlerFunc String Unit (Except String Nat) Unit) :=
  define ⟨name,"",""⟩ fun _ _ w => (.ok answer,w)

def lowering : Config := ⟨none,Char.toLower⟩

def readers : RBAC := newRBAC ⟨∅,.readonly⟩

theorem write_tool_kept_create : let td := lowering.complete (answering "item_create" 7)
    td.isWrite = true ∧ runs .error defaultToolPermissions readers none (some id) "item_create" td "viewer" () () = 0 := by
  have writes : (lowering.complete (answering "item_create" 7)).isWrite = true := by decide
  exact ⟨writes,(write_tool_kept_iff .error lowering [answering "item_create" 7] (List.Perm.refl _) rfl none (some id)
    "viewer" (by decide) "item_create" _ (lookup_insert _) writes () ()).mpr (.inl (by decide))⟩

/-- A reader runs a tool that the registry knows to write, as its name says. -/
theorem reader_runs_config_set : let td := lowering.complete (answering "config_set" 7)
    ((newDynamicRegistry lowering).registerModule [answering "config_set" 7]).tools.lookup "config_set" = some td ∧
    td.isWrite = true ∧ readers.toolOverrides = ∅ ∧ readers.hasPermission "viewer" .write = false ∧
    runs .error defaultToolPermissions readers none (some id) "config_set" td "viewer" () () ≠ 0 := by
  refine ⟨lookup_insert _,by decide,rfl,by decide,?_⟩
  decide

end Mcpkit.AccessControl
