import PlZero.CommandLine.Run

/-! # Folders in memory

A folder holds files by their paths. A path is walked part by part, as on a disk, and reading it
fails at the first part that is missing, too long, or behind a file.
-/

namespace PlZero.CommandLine

/-- Files by the parts of their paths. -/
structure Folder where
  files : List (List String × ByteArray)

namespace Folder

/-- A folder of files given by their paths; empty parts and dots do not count. -/
def ofFiles (files : List (String × ByteArray)) : Folder :=
  ⟨files.map fun (path, content) =>
    ((path.splitOn "/").filter fun part => part ≠ "" && part ≠ ".", content)⟩

/-- Nothing has that path. -/
def missing : ReadFailure := .system "No such file or directory" 2

/-- A file is used as a folder. -/
def notFolder : ReadFailure := .system "Not a directory" 20

/-- A folder is used as a file. -/
def isFolder : ReadFailure := .system "Is a directory" 21

/-- A path, or a part of one, is too long. -/
def tooLong : ReadFailure := .system "File name too long" 36

/-- Walks from a place down the parts of a path. The place is a folder inside this one, or `none`
for one outside of it, where nothing can be read. -/
def walk (folder : Folder) (place : Option (List String)) :
    List String → Except ReadFailure ByteArray
  | [] => .error isFolder
  | part :: others =>
      if part = "" || part = "." then folder.walk place others
      else if part = ".." then
        folder.walk
          (match place with
          | none | some [] => none
          | some inside => some inside.dropLast)
          others
      else if 255 < part.utf8ByteSize then .error tooLong
      else match place with
        | none => .error missing
        | some inside =>
            let here := inside ++ [part]
            match folder.files.find? fun (path, _) => path = here with
            | some (_, content) => if others.isEmpty then .ok content else .error notFolder
            | none =>
                if folder.files.any fun (path, _) => here.isPrefixOf path then
                  folder.walk (some here) others
                else .error missing

/-- Reads a file of the folder. -/
def read (folder : Folder) (path : String) : Except ReadFailure ByteArray :=
  if path.isEmpty then .error missing
  else if 4096 ≤ path.utf8ByteSize then .error tooLong
  else folder.walk (if path.startsWith "/" then none else some []) (path.splitOn "/")

end Folder

end PlZero.CommandLine
