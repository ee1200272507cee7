import Clonebox.Core.Data

/-! # Errors (`error.rs`)

Each variant with its payload and the text `thiserror` gives it. -/

namespace Clonebox

inductive ConfigError where
  | missingRootPath
  | missingProcessArgs
  | io (e : Errno)
  | json
  deriving DecidableEq

inductive StateError where
  | io (e : Errno)
  | json
  deriving DecidableEq

inductive RuntimeError where
  | accept4Failure (e : Errno)
  | bindFailure (e : Errno)
  | createSocketFailure (e : Errno)
  | connectFailure (e : Errno)
  | listenFailure (e : Errno)
  | pipe2Failure (e : Errno)
  | toUnixAddrFailure (e : Errno)
  | io (e : Errno)
  | read (e : Errno)
  | write (e : Errno)
  deriving DecidableEq

inductive CloneError where
  | noPidFd
  | noChildTid
  | noParentTid
  | noTls
  | noCgroup
  | clone3Failure (e : Errno)
  deriving DecidableEq

inductive NetworkError where
  | createSocketFailure (e : Errno)
  | bindFailure (e : Errno)
  | readOutOfRange
  | readFailure (what : String)
  | sendFailure (e : Errno)
  | recvFailure (e : Errno)
  | netlinkFailure (msg : String)
  | openFailure (e : Errno)
  | writeFailure (e : Errno)
  | commandFailure (e : Errno)
  deriving DecidableEq

inductive CgroupError where
  | createCgroupDirFailure (e : Errno) (which : String)
  | openFailure (e : Errno) (which : String)
  | readToStringFailure (e : Errno) (path resource : String)
  | resourceNotAvailable (path resource : String)
  | writeFailure (e : Errno) (what : String)
  deriving DecidableEq

inductive NamespaceError where
  | failedToEnterNamespace (what : String)
  deriving DecidableEq

inductive LogError where
  | io (e : Errno)
  deriving DecidableEq

inductive EventError where
  | writeFailure (e : Errno)
  | connectFailure (e : Errno) (path : String)
  deriving DecidableEq

inductive SystemError where
  | runtimeError (e : RuntimeError)
  | cloneError (e : CloneError)
  | networkError (e : NetworkError)
  | cgroupError (e : CgroupError)
  | namespaceError (e : NamespaceError)
  | logError (e : LogError)
  | eventError (e : EventError)
  | wait (e : Errno)
  | io (e : Errno) (path : String)
  deriving DecidableEq

inductive CoreError where
  | containerAlreadyExists (id : String)
  | containerAlreadyStopped (id : String)
  | containerNotFound (id : String)
  | containerNotCreated (id : String)
  | containerNotRunning (id : String)
  | containerNotPaused (id : String)
  | containerNotStopped (id : String)
  | cleanupFailure (e : Errno) (which : String)
  | configError (e : ConfigError)
  | stateError (e : StateError)
  | systemError (e : SystemError)
  | other (msg : String)
  deriving DecidableEq

/-! The `From` impls that `?` goes through. -/

instance : Coe ConfigError CoreError := ⟨.configError⟩
instance : Coe StateError CoreError := ⟨.stateError⟩
instance : Coe SystemError CoreError := ⟨.systemError⟩
instance : Coe RuntimeError CoreError := ⟨fun e => .systemError (.runtimeError e)⟩
instance : Coe CloneError CoreError := ⟨fun e => .systemError (.cloneError e)⟩
instance : Coe NetworkError CoreError := ⟨fun e => .systemError (.networkError e)⟩
instance : Coe CgroupError CoreError := ⟨fun e => .systemError (.cgroupError e)⟩
instance : Coe NamespaceError CoreError := ⟨fun e => .systemError (.namespaceError e)⟩
instance : Coe LogError CoreError := ⟨fun e => .systemError (.logError e)⟩
instance : Coe EventError CoreError := ⟨fun e => .systemError (.eventError e)⟩

/-! The `#[error(..)]` texts of the errors that reach a client. -/

def ConfigError.display : ConfigError → String
  | .missingRootPath => "config.json: root.path is required"
  | .missingProcessArgs => "config.json: process.args is required"
  | .io _ => "io error"
  | .json => "json error"

def StateError.display : StateError → String
  | .io _ => "io error"
  | .json => "json error"

def RuntimeError.display : RuntimeError → String
  | .accept4Failure _ => "failed to accept"
  | .bindFailure _ => "failed to bind"
  | .createSocketFailure _ => "failed to create socket"
  | .connectFailure _ => "failed to connect"
  | .listenFailure _ => "failed to listen"
  | .pipe2Failure _ => "failed to pipe"
  | .toUnixAddrFailure _ => "failed to create UnixAddr"
  | .io _ => "io error"
  | .read _ => "pipe read failed"
  | .write _ => "pipe write failed"

def CloneError.display : CloneError → String
  | .noPidFd => "CLONE_PIDFD set but no pid_fd provided"
  | .noChildTid => "CLONE_CHILD_SETTID set but no child_tid provided"
  | .noParentTid => "CLONE_PARENT_SETTID set but no parent_tid provided"
  | .noTls => "CLONE_SETTLS set but no tls provided"
  | .noCgroup => "CLONE_INTO_CGROUP set but no cgroup fd provided"
  | .clone3Failure _ => "clone3 failed"

def NetworkError.display : NetworkError → String
  | .createSocketFailure _ => "failed to create socket"
  | .bindFailure _ => "failed to bind"
  | .readOutOfRange => "read out of range"
  | .readFailure what => "failed to read " ++ what
  | .sendFailure _ => "fail to send bytes"
  | .recvFailure _ => "failed to receive bytes"
  | .netlinkFailure msg => "netlink: " ++ msg
  | .openFailure _ => "failed to open"
  | .writeFailure _ => "failed to write"
  | .commandFailure e => "command failed wth " ++ e.ioDisplay

def CgroupError.display : CgroupError → String
  | .createCgroupDirFailure _ which => "failed to create " ++ which ++ " cgroup"
  | .openFailure _ which => "failed to open " ++ which ++ " cgroup"
  | .readToStringFailure _ path resource => "failed to read " ++ path ++ ": " ++ resource
  | .resourceNotAvailable path resource =>
    path ++ ": " ++ resource ++ " not available on this system"
  | .writeFailure _ what => "failed to write into " ++ what ++ " cgroup"

def SystemError.display : SystemError → String
  | .runtimeError e => e.display
  | .cloneError e => e.display
  | .networkError e => e.display
  | .cgroupError e => e.display
  | .namespaceError (.failedToEnterNamespace what) => "failed to enter " ++ what ++ " namespace"
  | .logError (.io _) => "io error"
  | .eventError (.writeFailure _) => "failed to send status message"
  | .eventError (.connectFailure _ path) => "failed to connect to socket " ++ path
  | .wait _ => "waitpid failed"
  | .io _ path => "io error: " ++ path

end Clonebox
