/-!
# Disk faults

The reasons why reading, making or replacing a file can fail, with the words a message has for them. Most of them follow from what a path
leads to. The others are the device's own: it may refuse a change that every path lets through.
-/

namespace DeviceCatalog

/-- What a device says when it does not do what it is asked for. -/
structure DeviceFault where
  words : String
deriving DecidableEq

namespace DeviceFault

/-- What is to be changed is in use. -/
def inUse : DeviceFault := ⟨"Device or resource busy (os error 16)"⟩

/-- There is no room left. -/
def full : DeviceFault := ⟨"No space left on device (os error 28)"⟩

/-- The change is not permitted. -/
def denied : DeviceFault := ⟨"Permission denied (os error 13)"⟩

end DeviceFault

/-- Why an operation on files failed. -/
inductive DiskFault where
  | notFound
  | notDirectory
  | isDirectory
  | alreadyExists
  /-- The device does not do it, whatever the path. -/
  | busy {fault : DeviceFault}
  | nameTooLong
  | zeroInPath
  | notText
deriving DecidableEq

/-- The fault of a device that does not do something. -/
def DiskFault.device (fault : DeviceFault) : DiskFault := @busy fault

/-- The words of a message; the faults that the system reports carry its number. -/
def DiskFault.message : DiskFault → String
  | .notFound => "No such file or directory (os error 2)"
  | .notDirectory => "Not a directory (os error 20)"
  | .isDirectory => "Is a directory (os error 21)"
  | .alreadyExists => "File exists (os error 17)"
  | @busy fault => fault.words
  | .nameTooLong => "File name too long (os error 36)"
  | .zeroInPath => "file name contained an unexpected NUL byte"
  | .notText => "stream did not contain valid UTF-8"

end DeviceCatalog
