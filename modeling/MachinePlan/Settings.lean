import MachinePlan.Path

/-!
# Settings

The settings of a run. Each comes from the first of its argument, its environment variable and its
default that is not empty; relative files and directories are read from the project root.
-/

namespace MachinePlan

/-- One text for each setting; an empty one is none. -/
structure SettingTexts where
  root : String := ""
  configFile : String := ""
  localConfigFile : String := ""
  hooksDirectory : String := ""
  versionConstraint : String := ""
  planFile : String := ""
  deriving Inhabited, Repr, DecidableEq

structure Settings where
  root : Path
  /-- The primary file. -/
  configFile : Path
  /-- The override file. -/
  localConfigFile : Path
  hooksDirectory : Path
  /-- The versions of the backend that are supported. -/
  versionConstraint : String
  /-- The file that compiled plans are written to. -/
  planFile : Path
  deriving Inhabited, Repr, DecidableEq

namespace Settings

def firstOf (text other : String) : String :=
  if text.isEmpty then other else text

def variableNames : List String :=
  ["BOXFILE_ROOT", "BOXFILE_CONFIG", "BOXFILE_LOCAL_CONFIG", "BOXFILE_HOOKS_DIR",
    "BOXFILE_VERSION_CONSTRAINT", "BOXFILE_PLAN_FILE"]

def ofEnvironment (environment : String → String) : SettingTexts where
  root := environment "BOXFILE_ROOT"
  configFile := environment "BOXFILE_CONFIG"
  localConfigFile := environment "BOXFILE_LOCAL_CONFIG"
  hooksDirectory := environment "BOXFILE_HOOKS_DIR"
  versionConstraint := environment "BOXFILE_VERSION_CONSTRAINT"
  planFile := environment "BOXFILE_PLAN_FILE"

/-- The settings where neither arguments nor environment say anything. -/
def defaults (here : Path) : SettingTexts where
  root := here.text
  configFile := "vagrant.yaml"
  localConfigFile := "vagrant.local.yaml"
  hooksDirectory := "hooks"
  versionConstraint := ">= 2.2.0, < 3.0"
  planFile := ".boxfile/plan.json"

/-- The texts of one source, filled up from another. -/
def fill (texts others : SettingTexts) : SettingTexts where
  root := firstOf texts.root others.root
  configFile := firstOf texts.configFile others.configFile
  localConfigFile := firstOf texts.localConfigFile others.localConfigFile
  hooksDirectory := firstOf texts.hooksDirectory others.hooksDirectory
  versionConstraint := firstOf texts.versionConstraint others.versionConstraint
  planFile := firstOf texts.planFile others.planFile

def ofTexts (texts : SettingTexts) : Settings :=
  let root := Path.ofString texts.root
  { root
    configFile := root.join (.ofString texts.configFile)
    localConfigFile := root.join (.ofString texts.localConfigFile)
    hooksDirectory := root.join (.ofString texts.hooksDirectory)
    versionConstraint := texts.versionConstraint
    planFile := root.join (.ofString texts.planFile) }

def resolve (arguments : SettingTexts) (environment : String → String) (here : Path) : Settings :=
  ofTexts (fill (fill arguments (ofEnvironment environment)) (defaults here))

end Settings

end MachinePlan
