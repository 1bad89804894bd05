import VersionMatrix.FileTree.Resolve
import VersionMatrix.Stage

/-!
What can go wrong, as causes, and the wording of each.
-/

namespace VersionMatrix

/-- A failure of the container engine itself. -/
inductive EngineError where
  | unavailable (message : String)
  | tls (message : String)
  | pull (image message : String)
  | build (tag message : String)
  | run (image message : String)
  | remove (container message : String)
  | missingStatus (container : String)
deriving DecidableEq, Repr

def EngineError.message : EngineError → String
  | .unavailable text => "Docker daemon not available: " ++ text
  | .tls text => "Invalid TLS configuration: " ++ text
  | .pull image text => "Failed to pull image '" ++ image ++ "': " ++ text
  | .build tag text => "Failed to build image '" ++ tag ++ "': " ++ text
  | .run image text => "Failed to run container from '" ++ image ++ "': " ++ text
  | .remove container text => "Failed to remove container '" ++ container ++ "': " ++ text
  | .missingStatus container =>
    "Container '" ++ container ++ "' finished without reporting a status code"

inductive ConfigurationFault where
  | missingField (field : String)
  | missingPlaceholder (holder : String)
  | other (text : String)
deriving DecidableEq, Repr

def placeholder : String := "$VERSION"

def ConfigurationFault.message : ConfigurationFault → String
  | .missingField field => "missing required field '" ++ field ++ "'"
  | .missingPlaceholder holder => holder ++ " missing required placeholder " ++ placeholder
  | .other text => text

/-- Why the files of a run cannot be handled. -/
inductive StagingFault where
  | file (fault : FileFault)
  | walk (path : String) (fault : FileFault)
  | sourceNotDirectory
  | parentMissing
  | notDirectory
  | unexamined (path : String) (fault : FileFault)
  | unpackable (path : String)
  | other (text : String)
deriving DecidableEq, Repr

def StagingFault.message : StagingFault → String
  | .file fault => fault.message
  | .walk path fault => "IO error for operation on " ++ path ++ ": " ++ fault.message
  | .sourceNotDirectory => "source is not a directory"
  | .parentMissing => "parent directory does not exist"
  | .notDirectory => "not a directory"
  | .unexamined path fault => fault.message ++ " when getting metadata for " ++ path
  | .unpackable path => path ++ ": socket can not be archived"
  | .other text => text

/-- A failure of one stage. A failed build step that the daemon reports inside a stream that ends
well is `brokenBuild`; a rejected call or a broken stream is an engine error. -/
inductive StageError where
  | configuration (fault : ConfigurationFault)
  | io (path : String) (fault : StagingFault)
  | notFound (path : String)
  | engine (error : EngineError)
  | brokenBuild (message : String)
deriving DecidableEq, Repr

namespace StageError

def message : StageError → String
  | .configuration fault => "Configuration error: " ++ fault.message
  | .io path fault => "IO error at '" ++ path ++ "': " ++ fault.message
  | .notFound path => "Directory did not exist: " ++ path
  | .engine error => error.message
  | .brokenBuild text => "Docker build failed: " ++ text

/-- Whether the request was at fault, before anything was done. -/
def isConfiguration : StageError → Bool
  | .configuration _ => true
  | _ => false

end StageError

structure RunError where
  version : String
  stage : Stage
  source : StageError
deriving DecidableEq, Repr

def RunError.message (error : RunError) : String :=
  "version " ++ error.version ++ " failed while " ++ error.stage.name ++ ": " ++
    error.source.message

inductive ConfigError where
  | invalidValue (key message : String)
  | validationFailed (message : String)
deriving DecidableEq, Repr

def ConfigError.message : ConfigError → String
  | .invalidValue key text => "Invalid value for " ++ key ++ ": " ++ text
  | .validationFailed text => "Configuration validation failed: " ++ text

inductive ProjectError where
  | missingDirectory (path : String)
  | manifest (path : String)
  | io (text : String)
deriving DecidableEq, Repr

def ProjectError.message : ProjectError → String
  | .missingDirectory path => "Project directory '" ++ path ++ "' does not exist"
  | .manifest path => "Failed to parse '" ++ path ++ "'"
  | .io text => "IO error: " ++ text

end VersionMatrix
