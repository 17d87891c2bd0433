import Pagewright.CommandLine.Program

namespace Pagewright
namespace Main

/-!
# The executable

Everything that touches the world.  The files that a task looks at are taken
into a tree, the effect is computed from it, and the effect is carried out.
-/

/-- What stands at a path; directories are taken as a whole if `deep`. -/
partial def look (path : String) (deep : Bool) : IO (Option FileTree) := do
  try
    let real ← IO.FS.realPath path
    let info ← real.metadata
    match info.type with
    | .dir =>
        if !deep then return some FileTree.empty
        let found ← real.readDir
        let mut entries : List (String × FileTree) := []
        for entry in found do
          if let some tree ← look (toString entry.path) true then
            entries := (entry.fileName, tree) :: entries
        return some (.directory entries)
    | _ =>
        let bytes ← IO.FS.readBinFile real
        return some (.file (.ofBytes bytes))
  catch _ => return none

/-- Add what stands at a path, and the directories on the way to it. -/
def takeIn (tree : FileTree) (path : String) (deep : Bool) : IO FileTree := do
  let parts := FileTree.parts path
  let mut tree := tree
  let mut place : List String := []
  for index in List.range parts.length do
    let passed := parts.take (index + 1)
    place := passed.foldl FileTree.advance []
    let last := index + 1 = parts.length
    if (tree.at? place.reverse).isNone || (last && deep) then
      if let some found ← look (String.intercalate "/" passed) (last && deep) then
        tree := FileTree.put found place.reverse tree
  return tree

/-- The files that a task looks at. -/
def snapshot (task : CommandLine.Task) : IO FileTree := do
  let deep := match task with
    | .test _ => true
    | _ => false
  let mut tree := FileTree.empty
  for path in task.paths do
    tree ← takeIn tree path deep
  return tree

/-- Write and print what an effect says. -/
def carryOut (effect : CommandLine.Effect) : IO UInt32 := do
  IO.eprint effect.errors
  IO.print effect.output
  match effect.written with
  | none => return effect.code.toUInt32
  | some (path, contents) =>
      try
        IO.FS.writeFile path contents
        return effect.code.toUInt32
      catch error =>
        IO.eprintln ("error: cannot write '" ++ path ++ "': " ++ toString error)
        return 1

end Main
end Pagewright

open Pagewright in
def main (arguments : List String) : IO UInt32 := do
  let tree ← match CommandLine.read arguments with
    | .ok (task, _) => Main.snapshot task
    | .error _ => pure FileTree.empty
  Main.carryOut (CommandLine.effect tree arguments)
