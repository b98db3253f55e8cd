import MicroBench.Machine.Files
import MicroBench.Sink.System

/-! A sample machine to try programs on: a few directories and files that are there from
the start, some devices, and whatever else is put into its files. It has neither links nor
permissions. -/
namespace MicroBench.Machine

structure Tree where
  directories : List Path
  /-- The directory that relative paths start from. -/
  here : Path
deriving DecidableEq

namespace Tree

/-- Some devices, and the streams of the program by their numbers. No terminal is connected. -/
def devices : List (Path × Except IoError Place) :=
  [(["dev", "null"], .ok .void), (["dev", "zero"], .ok .void),
    (["dev", "random"], .ok .void), (["dev", "urandom"], .ok .void),
    (["dev", "full"], .ok .full), (["dev", "tty"], .error .noSuchDevice),
    (["dev", "stdin"], .ok .void), (["dev", "stdout"], .ok .stdout),
    (["dev", "stderr"], .ok .stderr)] ++
  [["dev", "fd"], ["proc", "self", "fd"]].flatMap fun streams =>
    [(streams ++ ["0"], .ok .void), (streams ++ ["1"], .ok .stdout),
      (streams ++ ["2"], .ok .stderr)]

/-- Directories in which nothing can be created, with the failure of an attempt. -/
def closedDirectories : List (Path × IoError) :=
  [(["dev", "fd"], .notFound), (["dev", "pts"], .permissionDenied), (["proc"], .notFound),
    (["proc", "self"], .notFound), (["proc", "self", "fd"], .notFound),
    (["sys"], .permissionDenied)]

def sampleDirectories : List Path :=
  [[], ["bin"], ["boot"], ["dev"], ["dev", "shm"], ["etc"], ["home"], ["lib"], ["lib64"],
    ["media"], ["mnt"], ["opt"], ["root"], ["run"], ["sbin"], ["srv"], ["tmp"], ["usr"],
    ["usr", "bin"], ["usr", "include"], ["usr", "lib"], ["usr", "lib64"], ["usr", "local"],
    ["usr", "local", "bin"], ["usr", "local", "lib"], ["usr", "local", "share"],
    ["usr", "sbin"], ["usr", "share"], ["usr", "src"], ["var"], ["var", "cache"], ["var", "lib"],
    ["var", "log"], ["var", "tmp"]] ++ closedDirectories.map Prod.fst

def sampleFiles : List Path :=
  [["bin", "ls"], ["bin", "sh"], ["etc", "fstab"], ["etc", "group"], ["etc", "hostname"],
    ["etc", "hosts"], ["etc", "os-release"], ["etc", "passwd"], ["etc", "resolv.conf"],
    ["etc", "shadow"], ["proc", "cpuinfo"], ["proc", "meminfo"], ["proc", "version"],
    ["usr", "bin", "env"], ["usr", "bin", "ls"], ["usr", "bin", "sh"]]

def holds (files : Files) (path : Path) : Bool :=
  (devices.lookup path).isSome || path ∈ sampleFiles || (files.contents? path).isSome

/-- In bytes, like the length of a path. -/
def longestName : Nat := 255

def longestPath : Nat := 4095

def descend (tree : Tree) (files : Files) (here : Path) : List String → Except IoError Path
  | [] => .ok here
  | name :: names =>
    if name = "" ∨ name = "." then tree.descend files here names
    else if name = ".." then tree.descend files here.dropLast names
    else if longestName < name.utf8ByteSize then .error .nameTooLong
    else
      let next := here ++ [name]
      if next ∈ tree.directories then tree.descend files next names
      else if holds files next then .error .notADirectory
      else .error .notFound

def entry (tree : Tree) (files : Files) (directory : Path) (name : String) :
    Except IoError Place :=
  let path := directory ++ [name]
  if longestName < name.utf8ByteSize then .error .nameTooLong
  else if path ∈ tree.directories then .error .isADirectory
  else
    match devices.lookup path with
    | some place => place
    | none =>
      match closedDirectories.lookup directory with
      | some e => if holds files path then .ok (.file path) else .error e
      | none => .ok (.file path)

/-- What a path leads to. One that ends in a slash or in dots can only be a directory. -/
def place (tree : Tree) (files : Files) (text : String) : Except IoError Place :=
  if longestPath < text.utf8ByteSize then .error .nameTooLong
  else
    let names := (text.toList.splitOn '/').map String.ofList
    let start := if text.startsWith "/" then [] else tree.here
    match (names.reverse.dropWhile (· = "")) with
    | [] => .error .isADirectory
    | last :: before =>
      match tree.descend files start before.reverse with
      | .error e => .error e
      | .ok directory =>
        if names.getLast? = some "" ∨ last = "." ∨ last = ".." then .error .isADirectory
        else tree.entry files directory last

end Tree

/-- The sample machine with one more directory, and a program started elsewhere. -/
def Site.having (path : Path) : Site :=
  ⟨Tree.place ⟨path :: Tree.sampleDirectories, ["home"]⟩⟩

end MicroBench.Machine
