import DirectiveRunner.Helper.Act
/-!
# The helpers by name

All functions that expressions may call. A helper either computes, or looks, or acts; only a helper
that acts can change anything (`run_of_not_acts`).
-/

namespace DirectiveRunner

/-- What a helper does. -/
inductive Helper.Body where
  /-- It depends on its arguments alone. -/
  | computes (f : Helper.Computation)
  /-- It looks at the setting and the world. -/
  | inspects (f : Helper.Inspection)
  /-- It may change the world. -/
  | acts (f : Helper.Act)

/-- A function that expressions may call. -/
structure Helper where
  name : String
  body : Helper.Body

namespace Helper

def run (h : Helper) (args : List Value) : Action EvalError Value :=
  match h.body with
  | .computes f => .ofExcept (f args)
  | .inspects f => fun s w => (f s w args, w)
  | .acts f => f args

def mayAct (h : Helper) : Bool :=
  match h.body with
  | .acts _ => true
  | _ => false

def all : List Helper :=
  [⟨"exists", .inspects exists?⟩,
    ⟨"missing", .inspects missing⟩,
    ⟨"changed", .acts changed⟩,
    ⟨"unchanged", .acts unchanged⟩,
    ⟨"found", .inspects found⟩,
    ⟨"toFile", .inspects toFile⟩,
    ⟨"currentFile", .inspects (currentFile "currentFile")⟩,
    ⟨"showInput", .inspects showInput⟩,
    ⟨"showOptions", .inspects showOptions⟩,
    ⟨"halt", .acts halt⟩,
    ⟨"getOriginalFile", .inspects getOriginalFile⟩,
    ⟨"getOriginalReference", .inspects (currentFile "getOriginalReference")⟩,
    ⟨"trimSpaces", .computes trimSpaces⟩,
    ⟨"getBasename", .computes getBasename⟩,
    ⟨"getFiletype", .computes getFiletype⟩,
    ⟨"replicatePattern", .computes replicatePattern⟩,
    ⟨"throwError", .computes raise⟩,
    ⟨"getSession", .inspects getSession⟩,
    ⟨"putSession", .acts putSession⟩,
    ⟨"buildString", .computes buildString⟩,
    ⟨"getCommand", .computes getCommand⟩,
    ⟨"getCommandWithWorkingDirectory", .inspects getCommandWithWorkingDirectory⟩,
    ⟨"isVerboseMode", .inspects isVerboseMode⟩,
    ⟨"isDryRunMode", .inspects isDryRunMode⟩,
    ⟨"showMessage", .acts showMessage⟩,
    ⟨"isOnPath", .inspects isOnPath⟩,
    ⟨"unsafelyExecuteSystemCommand", .acts unsafelyExecuteSystemCommand⟩,
    ⟨"listFilesByExtensions", .inspects listFilesByExtensions⟩,
    ⟨"listFilesByPatterns", .inspects listFilesByPatterns⟩,
    ⟨"writeToFile", .acts writeToFile⟩,
    ⟨"readFromFile", .inspects readFromFile⟩,
    ⟨"isSubdirectory", .inspects isSubdirectory⟩,
    ⟨"isEmpty", .computes isEmpty⟩,
    ⟨"isNotEmpty", .computes isNotEmpty⟩,
    ⟨"isTrue", .computes isTrue⟩,
    ⟨"isFalse", .computes isFalse⟩,
    ⟨"isString", .computes (hasType "isString" "string")⟩,
    ⟨"isList", .computes (hasType "isList" "list")⟩,
    ⟨"isMap", .computes (hasType "isMap" "map")⟩,
    ⟨"isBoolean", .computes (hasType "isBoolean" "boolean")⟩,
    ⟨"containsKey", .computes containsKey⟩,
    ⟨"size", .computes size⟩,
    ⟨"isWindows", .computes (platform "isWindows" false)⟩,
    ⟨"isLinux", .computes (platform "isLinux" true)⟩,
    ⟨"isMac", .computes (platform "isMac" false)⟩,
    ⟨"isUnix", .computes (platform "isUnix" true)⟩,
    ⟨"isCygwin", .inspects isCygwin⟩]

def names : List String := all.map (·.name)

def find? (name : String) : Option Helper := all.find? (·.name = name)

def call (name : String) (args : List Value) : Action EvalError Value :=
  match find? name with
  | some h => h.run args
  | none => .fail (.unknownFunction name)

/-- A helper that does not act leaves the world as it is. -/
theorem run_of_not_acts {h : Helper} (hb : h.mayAct = false) (args : List Value) (s : Setting)
    (w : World) : ((h.run args).run s w).2 = w := by
  unfold run mayAct at *
  split at hb <;> simp_all
  split <;> first | rfl | simp_all

theorem acting_names :
    (all.filter mayAct).map (·.name) =
      ["changed", "unchanged", "halt", "putSession", "showMessage",
        "unsafelyExecuteSystemCommand", "writeToFile"] := rfl

end Helper

end DirectiveRunner
