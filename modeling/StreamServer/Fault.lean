import StreamServer.Text.Quoted

/-!
# Faults of the operating system

A fault is why a call on a handle or a file failed.  It has a kind, which is what the rest of the
library decides by, and a text, which is what it shows.  A fault that carries an error number of the
system takes kind and text from a table; number and kind are interchangeable wherever a kind is
tested.
-/

namespace StreamServer

/-- What sort of failure a fault is. -/
inductive FaultKind
  | addrInUse
  | addrNotAvailable
  | alreadyExists
  | argumentListTooLong
  | brokenPipe
  | connectionAborted
  | connectionRefused
  | connectionReset
  | crossesDevices
  | deadlock
  | directoryNotEmpty
  | executableFileBusy
  | fileTooLarge
  | filesystemLoop
  | hostUnreachable
  | inProgress
  | interrupted
  | invalidData
  | invalidFilename
  | invalidInput
  | isADirectory
  | networkDown
  | networkUnreachable
  | notADirectory
  | notConnected
  | notFound
  | notSeekable
  | other
  | outOfMemory
  | permissionDenied
  | quotaExceeded
  | readOnlyFilesystem
  | resourceBusy
  | staleNetworkFileHandle
  | storageFull
  | timedOut
  | tooManyLinks
  | uncategorized
  | unexpectedEof
  | unsupported
  | wouldBlock
  | writeZero
  deriving Repr, DecidableEq

namespace FaultKind

/-- The name under which a kind is reported. -/
def name : FaultKind → String
  | addrInUse => "AddrInUse"
  | addrNotAvailable => "AddrNotAvailable"
  | alreadyExists => "AlreadyExists"
  | argumentListTooLong => "ArgumentListTooLong"
  | brokenPipe => "BrokenPipe"
  | connectionAborted => "ConnectionAborted"
  | connectionRefused => "ConnectionRefused"
  | connectionReset => "ConnectionReset"
  | crossesDevices => "CrossesDevices"
  | deadlock => "Deadlock"
  | directoryNotEmpty => "DirectoryNotEmpty"
  | executableFileBusy => "ExecutableFileBusy"
  | fileTooLarge => "FileTooLarge"
  | filesystemLoop => "FilesystemLoop"
  | hostUnreachable => "HostUnreachable"
  | inProgress => "InProgress"
  | interrupted => "Interrupted"
  | invalidData => "InvalidData"
  | invalidFilename => "InvalidFilename"
  | invalidInput => "InvalidInput"
  | isADirectory => "IsADirectory"
  | networkDown => "NetworkDown"
  | networkUnreachable => "NetworkUnreachable"
  | notADirectory => "NotADirectory"
  | notConnected => "NotConnected"
  | notFound => "NotFound"
  | notSeekable => "NotSeekable"
  | other => "Other"
  | outOfMemory => "OutOfMemory"
  | permissionDenied => "PermissionDenied"
  | quotaExceeded => "QuotaExceeded"
  | readOnlyFilesystem => "ReadOnlyFilesystem"
  | resourceBusy => "ResourceBusy"
  | staleNetworkFileHandle => "StaleNetworkFileHandle"
  | storageFull => "StorageFull"
  | timedOut => "TimedOut"
  | tooManyLinks => "TooManyLinks"
  | uncategorized => "Uncategorized"
  | unexpectedEof => "UnexpectedEof"
  | unsupported => "Unsupported"
  | wouldBlock => "WouldBlock"
  | writeZero => "WriteZero"

/-- The text of a fault of which only the kind is known. -/
def description : FaultKind → String
  | addrInUse => "address in use"
  | addrNotAvailable => "address not available"
  | alreadyExists => "entity already exists"
  | argumentListTooLong => "argument list too long"
  | brokenPipe => "broken pipe"
  | connectionAborted => "connection aborted"
  | connectionRefused => "connection refused"
  | connectionReset => "connection reset"
  | crossesDevices => "cross-device link or rename"
  | deadlock => "deadlock"
  | directoryNotEmpty => "directory not empty"
  | executableFileBusy => "executable file busy"
  | fileTooLarge => "file too large"
  | filesystemLoop => "filesystem loop or indirection limit (e.g. symlink loop)"
  | hostUnreachable => "host unreachable"
  | inProgress => "in progress"
  | interrupted => "operation interrupted"
  | invalidData => "invalid data"
  | invalidFilename => "invalid filename"
  | invalidInput => "invalid input parameter"
  | isADirectory => "is a directory"
  | networkDown => "network down"
  | networkUnreachable => "network unreachable"
  | notADirectory => "not a directory"
  | notConnected => "not connected"
  | notFound => "entity not found"
  | notSeekable => "seek on unseekable file"
  | other => "other error"
  | outOfMemory => "out of memory"
  | permissionDenied => "permission denied"
  | quotaExceeded => "quota exceeded"
  | readOnlyFilesystem => "read-only filesystem or storage medium"
  | resourceBusy => "resource busy"
  | staleNetworkFileHandle => "stale network file handle"
  | storageFull => "no storage space"
  | timedOut => "timed out"
  | tooManyLinks => "too many links"
  | uncategorized => "uncategorized error"
  | unexpectedEof => "unexpected end of file"
  | unsupported => "unsupported"
  | wouldBlock => "operation would block"
  | writeZero => "write zero"

end FaultKind

/-- The error numbers of the system, each with the kind and the text that go with it. -/
def errorNumbers : List (Nat × FaultKind × String) :=
  [ (1, .permissionDenied, "Operation not permitted"),
    (2, .notFound, "No such file or directory"),
    (4, .interrupted, "Interrupted system call"),
    (5, .uncategorized, "Input/output error"),
    (7, .argumentListTooLong, "Argument list too long"),
    (9, .uncategorized, "Bad file descriptor"),
    (11, .wouldBlock, "Resource temporarily unavailable"),
    (12, .outOfMemory, "Cannot allocate memory"),
    (13, .permissionDenied, "Permission denied"),
    (14, .uncategorized, "Bad address"),
    (16, .resourceBusy, "Device or resource busy"),
    (17, .alreadyExists, "File exists"),
    (18, .crossesDevices, "Invalid cross-device link"),
    (19, .uncategorized, "No such device"),
    (20, .notADirectory, "Not a directory"),
    (21, .isADirectory, "Is a directory"),
    (22, .invalidInput, "Invalid argument"),
    (23, .uncategorized, "Too many open files in system"),
    (24, .uncategorized, "Too many open files"),
    (26, .executableFileBusy, "Text file busy"),
    (27, .fileTooLarge, "File too large"),
    (28, .storageFull, "No space left on device"),
    (29, .notSeekable, "Illegal seek"),
    (30, .readOnlyFilesystem, "Read-only file system"),
    (31, .tooManyLinks, "Too many links"),
    (32, .brokenPipe, "Broken pipe"),
    (35, .deadlock, "Resource deadlock avoided"),
    (36, .invalidFilename, "File name too long"),
    (38, .unsupported, "Function not implemented"),
    (39, .directoryNotEmpty, "Directory not empty"),
    (40, .filesystemLoop, "Too many levels of symbolic links"),
    (71, .uncategorized, "Protocol error"),
    (88, .uncategorized, "Socket operation on non-socket"),
    (90, .uncategorized, "Message too long"),
    (93, .uncategorized, "Protocol not supported"),
    (95, .unsupported, "Operation not supported"),
    (97, .uncategorized, "Address family not supported by protocol"),
    (98, .addrInUse, "Address already in use"),
    (99, .addrNotAvailable, "Cannot assign requested address"),
    (100, .networkDown, "Network is down"),
    (101, .networkUnreachable, "Network is unreachable"),
    (103, .connectionAborted, "Software caused connection abort"),
    (104, .connectionReset, "Connection reset by peer"),
    (105, .uncategorized, "No buffer space available"),
    (106, .uncategorized, "Transport endpoint is already connected"),
    (107, .notConnected, "Transport endpoint is not connected"),
    (110, .timedOut, "Connection timed out"),
    (111, .connectionRefused, "Connection refused"),
    (112, .uncategorized, "Host is down"),
    (113, .hostUnreachable, "No route to host"),
    (114, .uncategorized, "Operation already in progress"),
    (115, .inProgress, "Operation now in progress"),
    (116, .staleNetworkFileHandle, "Stale file handle"),
    (122, .quotaExceeded, "Disk quota exceeded") ]

/-- Why a call failed: a bare kind, a kind with a fixed remark, a kind with an error of its own, or
an error number. -/
inductive Fault
  | bare (kind : FaultKind)
  | remark (kind : FaultKind) (text : String)
  | custom (kind : FaultKind) (text : String)
  | system (number : Nat)
  deriving Repr, DecidableEq

namespace Fault

/-- The kind that goes with an error number. -/
def kindOf (number : Nat) : FaultKind :=
  match errorNumbers.find? fun row => row.1 == number with
  | some (_, kind, _) => kind
  | none => .uncategorized

/-- The text that goes with an error number. -/
def textOf (number : Nat) : String :=
  match errorNumbers.find? fun row => row.1 == number with
  | some (_, _, text) => text
  | none => "Unknown error " ++ toString number

/-- What the library decides by. -/
def kind : Fault → FaultKind
  | bare k => k
  | remark k _ => k
  | custom k _ => k
  | system n => kindOf n

/-- What is shown to a reader. -/
def text : Fault → String
  | bare k => k.description
  | remark _ t => t
  | custom _ t => t
  | system n => textOf n ++ " (os error " ++ toString n ++ ")"

/-- Whether the call was broken off by a signal and has to be made again. -/
def isInterrupted (f : Fault) : Bool :=
  f.kind == .interrupted

/-- Whether the call had nothing to do yet. -/
def isWouldBlock (f : Fault) : Bool :=
  f.kind == .wouldBlock

/-- The form of a fault in which every part is named, for the report of a program that gives up. -/
def details : Fault → String
  | bare k => "Kind(" ++ k.name ++ ")"
  | remark k t => "Error \x7b kind: " ++ k.name ++ ", message: " ++ quote t ++ " \x7d"
  | custom k t => "Custom \x7b kind: " ++ k.name ++ ", error: " ++ quote t ++ " \x7d"
  | system n =>
      "Os \x7b code: " ++ toString n ++ ", kind: " ++ (kindOf n).name ++ ", message: "
        ++ quote (textOf n) ++ " \x7d"

end Fault

end StreamServer
