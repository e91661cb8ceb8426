/-
What an entry is, told by its name alone: a class file, an archive, an Android library, a Dalvik
file, or nothing that the scan looks into.
-/
import JndiScan.Wildcard

namespace JndiScan

/-- The kinds of entries. -/
inductive EntryKind
  | classFile
  | archive
  | androidLibrary
  | dalvik
  | unknown
  deriving DecidableEq, Repr

namespace EntryKind

/-- The label of a kind. -/
def label : EntryKind → Text
  | classFile => "CLASS"
  | archive => "ARCHIVE"
  | androidLibrary => "AAR"
  | dalvik => "DEX"
  | unknown => "UNKNOWN"

/-- The endings of archives. -/
def archiveEndings : List Text := [".jar", ".war", ".zip", ".apk"]

/-- The kind that a name tells. Endings of archives are compared without regard to case, those of
class files and Dalvik files exactly. -/
def ofName (name : Text) : EntryKind :=
  if name.matchesPattern "**.class" then classFile
  else if name.foldCase.endsWith ".aar" then androidLibrary
  else if archiveEndings.any name.foldCase.endsWith then archive
  else if name.matchesPattern "classes*.dex" then dalvik
  else unknown

end EntryKind

end JndiScan
