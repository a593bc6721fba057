/-!
A folder of text files, and what reading a path says in it. Folders are there only as far as a file
lies within them.
-/

namespace PolicyWarden.Scenario

structure Folder where
  files : List (List String × String) := []
deriving Repr

namespace Folder

def parts (path : String) : List String :=
  (path.splitOn "/").filter fun part => !part.isEmpty && part ≠ "."

def ofFiles (files : List (String × String)) : Folder where
  files := files.map fun (path, text) => (parts path, text)

def nameLimit : Nat := 255

def missing : String := "No such file or directory (os error 2)"
def notFolder : String := "Not a directory (os error 20)"
def isFolder : String := "Is a directory (os error 21)"
def tooLong : String := "File name too long (os error 36)"

/-- Goes on from `place`, which is there, along the rest of a path. Whatever is followed by another
part, be it empty, must be a folder. -/
def follow (folder : Folder) (place : List String) : List String → Except String String
  | [] =>
      match folder.files.lookup place with
      | some text => .ok text
      | none => .error isFolder
  | part :: rest =>
      if (folder.files.lookup place).isSome then .error notFolder
      else if part = "" || part = "." then folder.follow place rest
      else if part = ".." then folder.follow place.dropLast rest
      else if nameLimit < part.utf8ByteSize then .error tooLong
      else
        let next := place ++ [part]
        if folder.files.any fun (path, _) => next.isPrefixOf path then folder.follow next rest
        else .error missing

/-- The text at a path. A path from the root leads nowhere but to the root itself. -/
def read (folder : Folder) (path : String) : Except String String :=
  if path.isEmpty then .error missing
  else if path.startsWith "/" then
    if (parts path).all (· = "..") then .error isFolder
    else if (parts path).head?.any (nameLimit < ·.utf8ByteSize) then .error tooLong
    else .error missing
  else folder.follow [] (path.splitOn "/")

end Folder

end PolicyWarden.Scenario
