import VersionMatrix.CommandLine.Arguments
import VersionMatrix.Daemon.Client
import VersionMatrix.Daemon.Settings
import VersionMatrix.Pipeline.Run
import VersionMatrix.Project.Basic
import VersionMatrix.Request
import VersionMatrix.Time.Instant

/-!
What is settled before anything is run: the configuration, the project, the template, the requests,
and that the daemon can be reached.
-/

namespace VersionMatrix

/-- What an invocation finds around it. The configuration is the one before environment and
arguments. -/
structure Host where
  configuration : RunConfig
  environment : Environment
  disk : Disk
  git : Git
  daemon : Daemon
  terminal : Bool
  startedAt : Instant
  finishedAt : Instant

/-- Why an invocation is refused before anything is run. -/
inductive Refusal where
  | configuration (error : ConfigError)
  | project (path : String) (error : ProjectError)
  | template (error : ProjectError)
  | request (source : String) (error : StageError)
  | connection (error : EngineError)
  | unreachable (settings : DaemonSettings) (error : EngineError)
deriving DecidableEq, Repr

namespace Refusal

/-- A project error and its cause. -/
def projectChain (error : ProjectError) : List String :=
  match error with
  | .io text => [error.message, text]
  | _ => [error.message]

/-- What went wrong and why, the outermost first. -/
def chain : Refusal → List String
  | .configuration error => [error.message]
  | .project path error => ("Failed to inspect project at " ++ path) :: projectChain error
  | .template error => projectChain error
  | .request source error => ["Invalid Dockerfile template " ++ source, error.message]
  | .connection error => [error.message]
  | .unreachable settings error =>
    ["Docker daemon at " ++ settings.display ++ " is not reachable", error.message]

end Refusal

namespace RunConfig

/-- The configuration with the arguments that were given, not validated. -/
def override (config : RunConfig) (arguments : RunArguments) : RunConfig where
  concurrency := arguments.concurrency.getD config.concurrency
  baseImage := (arguments.baseImage.map Text.trim).getD config.baseImage
  testCommand := (arguments.testCommand.map Text.words).getD config.testCommand
  templatePath := arguments.template.or config.templatePath
  stagingRoot := config.stagingRoot
  retain := if arguments.cleanStaging then .discard else config.retain

/-- The configuration of an invocation: what the environment makes of `config` is validated by
itself, and again with the arguments over it. -/
def resolve (config : RunConfig) (environment : Environment) (arguments : RunArguments) :
    Except ConfigError RunConfig := do
  let config := (← config.ofEnvironment environment).override arguments
  config.validate
  return config

def templateFile (config : RunConfig) (root : String) : String :=
  config.templatePath.getD (Path.join root Project.templateFileName)

/-- Where the template comes from, as a refusal names it. -/
def templateSource (config : RunConfig) (root : String) : String :=
  match config.templatePath with
  | some path => path
  | none => "in " ++ Path.join root Project.templateFileName

end RunConfig

/-- The requests for the versions, each version once, in the order of their first mention. They
differ in nothing but the version, and only the first of them is validated. A single version is
always verbose. -/
def requestsFor (project : Project) (config : RunConfig) (template : String)
    (versions : List String) (verbose : Bool) : Except StageError (List RunRequest) := do
  let versions := versions.eraseDups
  match versions with
  | [] => return []
  | first :: _ =>
    let model : RunRequest :=
      { version := first
        projectName := project.name
        sourcePath := project.root
        imageNameTemplate := project.imageNameTemplate
        dockerfileTemplate := template
        baseImage := config.baseImage
        testCommand := config.testCommand
        verbose := verbose || versions.length == 1 }
    model.validate
    return versions.map model.forVersion

/-- What is going to be run. -/
structure Plan where
  config : RunConfig
  requests : List RunRequest
deriving DecidableEq, Repr

namespace Plan

/-- The plan of an invocation, or why there is none. Nothing is sent to the daemon. -/
def make (host : Host) (arguments : RunArguments) : Except Refusal Plan := do
  let config ← (host.configuration.resolve host.environment arguments).mapError .configuration
  let versions := if arguments.versions.isEmpty then defaultVersions else arguments.versions
  let project ←
    (Project.discover host.git host.disk arguments.path).mapError (.project arguments.path)
  let template ←
    (Project.loadTemplate host.disk (config.templateFile project.root)).mapError .template
  let requests ← (requestsFor project config template versions arguments.verbose).mapError
    (.request (config.templateSource project.root))
  (DaemonSettings.ofEnvironment host.environment).prepare host.disk |>.mapError .connection
  return { config, requests }

def pipeline (plan : Plan) : Pipeline where
  stagingRoot := plan.config.stagingRoot
  retain := plan.config.retain

def jobs (plan : Plan) (engine : Engine) : List Job :=
  plan.requests.map fun request => { request, engine }

def checkDaemon (host : Host) : Except Refusal Unit :=
  host.daemon.ping.mapError (.unreachable (.ofEnvironment host.environment))

end Plan

end VersionMatrix
