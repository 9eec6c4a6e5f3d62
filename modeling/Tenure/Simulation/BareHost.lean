import Tenure.Config.Layers

/-!
# A host with one file

What comes of reading a file on a host that has its usual directories and
one file that was put there. A path is followed name by name: a name may
lead into a directory, stay where it is, go up, or be none that is there,
and what is wrong with the first such name is what is reported.
-/

namespace Tenure.Simulation

/-- Where a path has come to. -/
inductive Place where
  | root
  /-- A directory at the root. -/
  | top (name : String)
  /-- Some other directory, of which nothing is known but those above it. -/
  | elsewhere
  deriving DecidableEq

/-- The directories at the root. -/
def rootDirectories : List String :=
  ["bin", "boot", "dev", "etc", "home", "lib", "media", "mnt", "opt", "proc", "root", "run",
    "sbin", "srv", "sys", "tmp", "usr", "var"]

/-- How many bytes a name may have. -/
def longestName : Nat := 255

/-- How many bytes a path may have. -/
def longestPath : Nat := 4095

def nameTooLong : Config.Source := .refused "File name too long (os error 36)"

def notDirectory : Config.Source := .refused "Not a directory (os error 20)"

/-- What reading yields at the end of the names. -/
def follow (place : Place) : List String → Config.Source
  | [] => .directory
  | name :: rest =>
    if name.isEmpty || name == "." then follow place rest
    else if name == ".." then follow (if place = .elsewhere then .elsewhere else .root) rest
    else if longestName < name.utf8ByteSize then nameTooLong
    else match place with
      | .root => if rootDirectories.contains name then follow (.top name) rest else .missing
      | .top "dev" =>
        if name != "null" then .missing else if rest.isEmpty then .text "" else notDirectory
      | _ => .missing

/-- **What reading a path yields** where a file was put at the path `mount`. A
file has nothing below it. -/
def bareHost (mount : String) (file : Config.Source) (path : String) : Config.Source :=
  if path == mount then file
  else if longestPath < path.utf8ByteSize then nameTooLong
  else if path.startsWith (mount ++ "/") then
    match file with
    | .missing => .missing
    | .directory => if (path.drop mount.length).all (· = '/') then .directory else .missing
    | _ => notDirectory
  else follow (if path.startsWith "/" then .root else .elsewhere) (path.splitOn "/")

end Tenure.Simulation
