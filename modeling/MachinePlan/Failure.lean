/-!
# Failures

Why a step ends without a result. A `Problem` is a cause that is explained to the user in words; a
`Fault` is the misuse of a value or of the file tree, which has a kind only.
-/

namespace MachinePlan

/-- The two containers that an attribute can be required to be. -/
inductive Shape where
  | list
  | mapping
  deriving Repr, DecidableEq

def Shape.name : Shape → String
  | .list => "list"
  | .mapping => "mapping"

/-- What is wrong with the configuration. -/
inductive ConfigProblem where
  /-- There is no file at the path. -/
  | missingFile (path : String)
  /-- The file holds nothing. -/
  | emptyFile (path : String)
  /-- The file is no well-formed document, for the reason that its reader gives. -/
  | invalidMarkup (path reason : String)
  /-- The document of the file is no mapping. -/
  | fileNotMapping (path : String)
  /-- The section of the nodes is no mapping. -/
  | nodesNotMapping
  /-- The attributes of a node are no mapping. -/
  | nodeNotMapping (node got : String)
  /-- An attribute of a node is not the container it has to be. -/
  | attributeShape (node attr : String) (wanted : Shape) (got : String)
  /-- A part of an attribute of a node is no mapping. -/
  | partNotMapping (node part got : String)
  /-- A clause of a version constraint does not follow the grammar. -/
  | badClause (clause : String)
  /-- The document defines no node. -/
  | noNodes (sources : String)
  deriving Repr, DecidableEq

def ConfigProblem.message : ConfigProblem → String
  | .missingFile path => s!"Configuration file not found: {path}"
  | .emptyFile path => s!"Configuration file is empty: {path}"
  | .invalidMarkup path reason => s!"Invalid YAML in {path}: {reason}"
  | .fileNotMapping path => s!"Configuration {path} must be a YAML object (dict)"
  | .nodesNotMapping => "Section 'nodes' must be a mapping of node name to attributes"
  | .nodeNotMapping node got => s!"Node '{node}' must be a mapping, got {got}"
  | .attributeShape node attr wanted got =>
    s!"Node '{node}': '{attr}' must be a {wanted.name}, got {got}"
  | .partNotMapping node part got => s!"Node '{node}': {part} must be a mapping, got {got}"
  | .badClause clause => s!"Invalid version constraint: '{clause}'"
  | .noNodes sources => s!"No nodes defined in {sources}"

/-- Why a backend is refused. -/
inductive VersionProblem where
  /-- The backend reports no version. -/
  | unknown (backend output constraint : String)
  /-- The version of the backend is outside the supported range. -/
  | unsupported (backend version constraint : String)
  deriving Repr, DecidableEq

def VersionProblem.message : VersionProblem → String
  | .unknown backend output constraint =>
    s!"Cannot determine {backend} version (got: {output}); required: {constraint}"
  | .unsupported backend version constraint =>
    s!"{backend} {version} is not supported; required: {constraint}"

/-- Why a plugin could not be installed. -/
inductive PluginProblem where
  /-- The backend explains the failure in its own words. -/
  | refused (message : String)
  /-- The installation of the plugin ended for the given reason. -/
  | failed (plugin reason : String)
  deriving Repr, DecidableEq

def PluginProblem.message : PluginProblem → String
  | .refused message => message
  | .failed plugin reason => s!"Installation of plugin {plugin} failed: {reason}"

/-- Names in a row, or a word in their place when the row is empty. -/
def namesOr (none : String) (names : List String) : String :=
  let row := ", ".intercalate names
  if row.isEmpty then none else row

/-- A cause that ends a run and is reported in words. -/
inductive Problem where
  | config (problem : ConfigProblem)
  | version (problem : VersionProblem)
  | plugin (problem : PluginProblem)
  /-- A node asks for a hook that nothing defines. -/
  | unknownHook (name : String) (known : List String)
  /-- A hook file cannot be loaded. -/
  | hookFile (path reason : String)
  /-- A hook gives up. -/
  | hookFailed (message : String)
  /-- A single node is asked for that the document does not define. -/
  | unknownNode (name : String) (known : List String)
  deriving Repr, DecidableEq

def Problem.message : Problem → String
  | .config problem => problem.message
  | .version problem => problem.message
  | .plugin problem => problem.message
  | .unknownHook name known => s!"Unknown hook: {name}. Available: " ++ namesOr "none" known
  | .hookFile path reason => s!"Failed to load hooks from {path}: {reason}"
  | .hookFailed message => message
  | .unknownNode name known => s!"Unknown node: {name}. Available: " ++ ", ".intercalate known

/-- The misuse of a value or of the file tree. -/
inductive Fault where
  /-- A value of a kind that the operation is not defined for. -/
  | type
  /-- A part that values of this kind do not have. -/
  | missingPart
  /-- A value of the right kind with an impossible content. -/
  | value
  /-- A number beyond the range of machine numbers. -/
  | outOfRange
  /-- A key that a mapping does not have. -/
  | missingKey
  /-- A position beyond the end of a sequence. -/
  | missingIndex
  /-- A path that leads nowhere. -/
  | notFound
  /-- A directory where a file is needed. -/
  | isDirectory
  /-- A file where a directory is to be made. -/
  | fileExists
  /-- A file on the way to a path. -/
  | notDirectory
  /-- A file whose bytes are no text. -/
  | undecodable
  /-- A value that contains itself, or whose parts are nested too deep. -/
  | endless
  deriving Repr, DecidableEq

/-- Why a step ends without a result. -/
inductive Failure where
  | problem (problem : Problem)
  | fault (fault : Fault)
  deriving Repr, DecidableEq

def Failure.config (problem : ConfigProblem) : Failure := .problem (.config problem)

end MachinePlan
