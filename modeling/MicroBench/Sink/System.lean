import MicroBench.Sink.Basic

/-! The failures that an operating system reports when files are written. -/
namespace MicroBench.IoError

def notFound : IoError := system 2 "NotFound" "No such file or directory"

def noSuchDevice : IoError := system 6 "Uncategorized" "No such device or address"

def permissionDenied : IoError := system 13 "PermissionDenied" "Permission denied"

def notADirectory : IoError := system 20 "NotADirectory" "Not a directory"

def isADirectory : IoError := system 21 "IsADirectory" "Is a directory"

def storageFull : IoError := system 28 "StorageFull" "No space left on device"

def brokenPipe : IoError := system 32 "BrokenPipe" "Broken pipe"

def nameTooLong : IoError := system 36 "InvalidFilename" "File name too long"

def known : List IoError :=
  [notFound, permissionDenied, notADirectory, isADirectory,
    system 26 "ExecutableFileBusy" "Text file busy",
    system 27 "FileTooLarge" "File too large",
    storageFull,
    system 30 "ReadOnlyFilesystem" "Read-only file system",
    brokenPipe, nameTooLong,
    system 40 "FilesystemLoop" "Too many levels of symbolic links",
    system 122 "QuotaExceeded" "Disk quota exceeded"]

/-- The failure of that number; for others only the system's own words are known. -/
def ofCode (code : Nat) (details : String) : IoError :=
  (known.find? (·.code = some code)).getD (system code "Uncategorized" details)

end MicroBench.IoError
