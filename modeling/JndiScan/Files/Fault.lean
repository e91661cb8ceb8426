/-
Why the system refuses a path: it has no such thing, or the text is no path at all. Work that calls
itself for each directory or link on its way can also be nested too deep.
-/
import JndiScan.Text.Quoted

namespace JndiScan

/-- What the system answers in place of a file. -/
inductive SystemError
  | notFound
  | accessDenied
  | alreadyThere
  | notDirectory
  | isDirectory
  | nameTooLong
  | tooManyLinks
  deriving DecidableEq, Repr

namespace SystemError

/-- The number of an error. -/
def number : SystemError → Nat
  | notFound => 2
  | accessDenied => 13
  | alreadyThere => 17
  | notDirectory => 20
  | isDirectory => 21
  | nameTooLong => 36
  | tooManyLinks => 40

/-- The wording of an error. -/
def wording : SystemError → Text
  | notFound => "No such file or directory"
  | accessDenied => "Permission denied"
  | alreadyThere => "File exists"
  | notDirectory => "Not a directory"
  | isDirectory => "Is a directory"
  | nameTooLong => "File name too long"
  | tooManyLinks => "Too many levels of symbolic links"

/-- An error that only says that nothing usable is there. -/
def meansAbsent : SystemError → Bool
  | notFound | notDirectory | tooManyLinks => true
  | accessDenied | alreadyThere | isDirectory | nameTooLong => false

end SystemError

/-- An error of the system with the path that it is about, if it is about one; a wording of its own
takes the place of the usual one. -/
inductive FileError
  | system (error : SystemError) (path : Text)
  | other (wording : Text)
  deriving DecidableEq, Repr

namespace FileError

/-- What is said of an error. -/
def message : FileError → Text
  | system error path =>
    "[Errno " ++ .ofNat error.number ++ "] " ++ error.wording ++ ": " ++ path.quoted
  | other wording => wording

/-- The path of an error. -/
def path? : FileError → Option Text
  | system _ path => some path
  | other _ => none

end FileError

/-- Work that calls itself once more for each directory that it makes, removes or lists, or for each
link whose target it resolves. -/
inductive NestedWork
  | making
  | removing
  | listing
  | resolving
  deriving DecidableEq, Repr

/-- What is said of work whose calls are nested too deep. -/
def NestedWork.wording : NestedWork → Text
  | making => "maximum recursion depth exceeded while calling a Python object"
  | removing | listing | resolving => "maximum recursion depth exceeded"

/-- Why a text leads to nothing: an error of the system, or a text that cannot be a path. -/
inductive PathFault
  | file (error : FileError)
  /-- The text holds a NUL. -/
  | embeddedNull
  /-- The text holds a half of a surrogate pair that stands for no octet. -/
  | unencodable
  /-- The links on the way lead back to the path shown. -/
  | linkLoop (path : Text)
  /-- The calls for what is on the way are nested too deep. -/
  | tooDeep (work : NestedWork)
  deriving DecidableEq, Repr

namespace PathFault

/-- What is said of a fault; of an unencodable text nothing is. -/
def message : PathFault → Text
  | file error => error.message
  | embeddedNull => "embedded null byte"
  | unencodable => []
  | linkLoop path => "Symlink loop from " ++ path.quoted
  | tooDeep work => work.wording

end PathFault

end JndiScan
