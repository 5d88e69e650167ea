import Mcpkit.GoMaps

/-!
The tool registry. Registering a tool fills in what its definition leaves open and
replaces any tool of the same name; the names of the tools are the keys.
-/
namespace Mcpkit.RegistryModel
open GoMaps Finmap
variable {H : Type}

structure Tool where
  name : String
  description : String
  inputSchema : String
  deriving DecidableEq

/-- A definition. `handler` stands for the handler function and for the fields that registration does not read. -/
structure ToolDefinition (H : Type) where
  tool : Tool
  handler : H
  category : String
  runtimeGroup : String
  isWrite : Bool
  readOnlyOverride : Option Bool
  deriving DecidableEq

def define (tool : Tool) (handler : H) : ToolDefinition H := ⟨tool,handler,"","",false,none⟩

/-- Of the configuration, what registration reads; `lower` is Go's lower case of a character. -/
structure Config where
  runtimeGroupMapper : Option (String → String)
  lower : Char → Char

def writeSuffixes : List String :=
  ["_create","_delete","_remove","_reset","_send","_post",
    "_update","_set","_add","_apply","_import","_publish",
    "_start","_stop","_restart","_trigger","_execute","_run",
    "_record","_assign","_unassign","_move","_copy","_rename",
    "_enable","_disable","_clear","_flush","_purge",
    "_archive","_restore","_sync","_push","_deploy","_install",
    "_uninstall","_register","_deregister","_subscribe","_unsubscribe",
    "_approve","_reject","_resolve","_close","_reopen"]

variable (config : Config)

def inferIsWrite (name : String) : Bool :=
  writeSuffixes.any fun suffix => suffix.toList.isSuffixOf (name.toList.map config.lower)

variable (td : ToolDefinition H)

def Config.complete : ToolDefinition H :=
  { td with
    isWrite := match td.readOnlyOverride with
      | some readOnly => !readOnly
      | none => td.isWrite || inferIsWrite config td.tool.name
    runtimeGroup := match config.runtimeGroupMapper with
      | some mapper => if td.runtimeGroup = "" then mapper td.category else td.runtimeGroup
      | none => td.runtimeGroup }

@[simp] theorem complete_tool : (config.complete td).tool = td.tool := rfl

@[simp] theorem complete_handler : (config.complete td).handler = td.handler := rfl

/-- The registry; `deferred` is the set of names marked for deferred loading. -/
structure DynamicRegistry (H : Type) where
  config : Config
  tools : GoMap (ToolDefinition H)
  deferred : GoMap Unit

def newDynamicRegistry : DynamicRegistry H := ⟨config,∅,∅⟩

variable (d : DynamicRegistry H)

def DynamicRegistry.addTool (td : ToolDefinition H) : DynamicRegistry H :=
  { d with tools := d.tools.insert td.tool.name (d.config.complete td) }

def DynamicRegistry.removeTool (name : String) : Bool × DynamicRegistry H :=
  if name ∈ d.tools then (true,{ d with tools := d.tools.erase name, deferred := d.deferred.erase name })
  else (false,d)

def DynamicRegistry.registerModule (tools : List (ToolDefinition H)) : DynamicRegistry H :=
  tools.foldl DynamicRegistry.addTool d

/-! ### Lookups -/

theorem addTool_lookup (name : String) : (d.addTool td).tools.lookup name =
      if name = td.tool.name then some (d.config.complete td) else d.tools.lookup name := by
  split
  · rename_i same
    rw [same]
    exact lookup_insert _
  · rename_i different
    exact lookup_insert_of_ne _ different

theorem removeTool_lookup (removed name : String) :
    (d.removeTool removed).2.tools.lookup name = if name = removed then none else d.tools.lookup name := by
  unfold DynamicRegistry.removeTool
  by_cases same : name = removed
  · subst same
    rw [if_pos rfl]
    split
    · exact lookup_erase _ _
    · rename_i absent
      exact Finmap.lookup_eq_none.mpr absent
  · split
    · exact lookup_erase_ne same
    · rfl

theorem removeAll_lookup (names : List String) (name : String) : ∀ reg : DynamicRegistry H,
    (names.foldl (fun reg nsName => (reg.removeTool nsName).2) reg).tools.lookup name =
      if name ∈ names then none else reg.tools.lookup name := by
  induction names with
  | nil => intro reg; simp
  | cons first rest ih =>
    intro reg
    rw [List.foldl_cons,ih,removeTool_lookup]
    by_cases same : name = first <;> simp [same]

end Mcpkit.RegistryModel
