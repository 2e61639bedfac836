/-!
# Errors of a stream

A consumer of events, or the transport below it, refuses a call with an error: a kind out of a
fixed set, and a message.
-/

namespace ParseMarkup

/-- What kind of failure a stream error is. -/
inductive ErrorKind where
  | notFound
  | permissionDenied
  | connectionRefused
  | connectionReset
  | hostUnreachable
  | networkUnreachable
  | connectionAborted
  | notConnected
  | addrInUse
  | addrNotAvailable
  | networkDown
  | brokenPipe
  | alreadyExists
  | wouldBlock
  | notADirectory
  | isADirectory
  | directoryNotEmpty
  | readOnlyFilesystem
  | staleNetworkFileHandle
  | invalidInput
  | invalidData
  | timedOut
  | writeZero
  | storageFull
  | notSeekable
  | quotaExceeded
  | fileTooLarge
  | resourceBusy
  | executableFileBusy
  | deadlock
  | crossesDevices
  | tooManyLinks
  | invalidFilename
  | argumentListTooLong
  | interrupted
  | unsupported
  | unexpectedEof
  | outOfMemory
  | other
  deriving DecidableEq, Repr

namespace ErrorKind

/-- The name of a kind. -/
def name : ErrorKind → String
  | notFound => "NotFound"
  | permissionDenied => "PermissionDenied"
  | connectionRefused => "ConnectionRefused"
  | connectionReset => "ConnectionReset"
  | hostUnreachable => "HostUnreachable"
  | networkUnreachable => "NetworkUnreachable"
  | connectionAborted => "ConnectionAborted"
  | notConnected => "NotConnected"
  | addrInUse => "AddrInUse"
  | addrNotAvailable => "AddrNotAvailable"
  | networkDown => "NetworkDown"
  | brokenPipe => "BrokenPipe"
  | alreadyExists => "AlreadyExists"
  | wouldBlock => "WouldBlock"
  | notADirectory => "NotADirectory"
  | isADirectory => "IsADirectory"
  | directoryNotEmpty => "DirectoryNotEmpty"
  | readOnlyFilesystem => "ReadOnlyFilesystem"
  | staleNetworkFileHandle => "StaleNetworkFileHandle"
  | invalidInput => "InvalidInput"
  | invalidData => "InvalidData"
  | timedOut => "TimedOut"
  | writeZero => "WriteZero"
  | storageFull => "StorageFull"
  | notSeekable => "NotSeekable"
  | quotaExceeded => "QuotaExceeded"
  | fileTooLarge => "FileTooLarge"
  | resourceBusy => "ResourceBusy"
  | executableFileBusy => "ExecutableFileBusy"
  | deadlock => "Deadlock"
  | crossesDevices => "CrossesDevices"
  | tooManyLinks => "TooManyLinks"
  | invalidFilename => "InvalidFilename"
  | argumentListTooLong => "ArgumentListTooLong"
  | interrupted => "Interrupted"
  | unsupported => "Unsupported"
  | unexpectedEof => "UnexpectedEof"
  | outOfMemory => "OutOfMemory"
  | other => "Other"

/-- Every kind. -/
def all : List ErrorKind :=
  [notFound, permissionDenied, connectionRefused, connectionReset, hostUnreachable,
    networkUnreachable, connectionAborted, notConnected, addrInUse, addrNotAvailable,
    networkDown, brokenPipe, alreadyExists, wouldBlock, notADirectory, isADirectory,
    directoryNotEmpty, readOnlyFilesystem, staleNetworkFileHandle, invalidInput, invalidData,
    timedOut, writeZero, storageFull, notSeekable, quotaExceeded, fileTooLarge, resourceBusy,
    executableFileBusy, deadlock, crossesDevices, tooManyLinks, invalidFilename,
    argumentListTooLong, interrupted, unsupported, unexpectedEof, outOfMemory, other]

/-- The kind with a given name. -/
def ofName? (s : String) : Option ErrorKind := all.find? fun kind => kind.name = s

end ErrorKind

/-- Why a call was refused. -/
structure StreamError where
  /-- The kind of failure. -/
  kind : ErrorKind
  /-- The text for a reader. -/
  message : String
  deriving DecidableEq, Repr

/-- Work on a state of type `σ` that may fail with a stream error. A failure keeps what was
done to the state before it. -/
abbrev StreamM (σ α : Type) : Type := EStateM StreamError σ α

end ParseMarkup
