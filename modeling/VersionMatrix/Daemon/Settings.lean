import VersionMatrix.Config
import VersionMatrix.Daemon.Certificate
import VersionMatrix.FileTree.Operations

/-!
How the daemon of the container engine is reached.
-/

namespace VersionMatrix

inductive DaemonSettings where
  | localSocket
  | plain (address : String)
  | secured (address certificates : String)
deriving DecidableEq, Repr

namespace DaemonSettings

def hasScheme (schemes : List String) (address : String) : Bool :=
  schemes.any fun scheme => scheme.toList.isPrefixOf address.toList

def nonblank? (environment : Environment) (key : String) : Option String :=
  (environment.lookup key).filter fun value => !Text.isBlank value

/-- The settings that the environment asks for. An address of an unknown scheme, among them the
path of a socket, means the local socket. -/
def ofEnvironment (environment : Environment) : DaemonSettings :=
  match nonblank? environment "DOCKER_HOST" with
  | none => .localSocket
  | some address =>
    if hasScheme ["tcp://", "https://"] address then
      match nonblank? environment "DOCKER_CERT_PATH" with
      | some certificates => .secured address certificates
      | none => .plain address
    else if hasScheme ["http://"] address then .plain address
    else .localSocket

def display : DaemonSettings → String
  | .localSocket => "local socket"
  | .plain address => address
  | .secured address _ => address ++ " (tls)"

/-- The files that a secured connection needs, in the order in which they are looked for. -/
def certificateFiles : List String := ["key.pem", "cert.pem", "ca.pem"]

/-- The file with the certificates that the daemon is to be known by. -/
def authorities : String := "ca.pem"

/-- Checks that a client can be made. Nothing is sent to the daemon. -/
def prepare (disk : Disk) : DaemonSettings → Except EngineError Unit
  | .secured address certificates => do
    let files := certificateFiles.map (Path.join certificates)
    if let some missing := files.find? fun file => !disk.isFile file then
      throw (.tls ("missing certificate file " ++ missing))
    let problem := match disk.readFile (Path.join certificates authorities) with
      | .ok (bytes, _) => (Certificate.textFault? bytes).map Certificate.Fault.message
      | .error fault => some fault.message
    if let some text := problem then
      throw (.unavailable ("Failed to connect to " ++ address ++ ": " ++ text))
  | _ => .ok ()

end DaemonSettings

end VersionMatrix
