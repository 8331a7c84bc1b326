import SingleFile.SourceMap.Basic
import SingleFile.SourceMap.Error

/-! # Indexed maps

An indexed map is divided into sections, each a map of its own that starts at an offset of the
generated text. Flattening joins the sections in the order of their offsets and moves their
tokens: all by the lines of the offset, those of a section's first line also by its columns. A
token that would be moved past the last line or column stops the program.
-/

namespace SingleFile

/-- A section; one without a map names at most the address where it could be found. -/
structure Section (α : Type) where
  offset : Point
  url : Option String
  map : Option α

inductive MapTree (α : Type) where
  | single (map : α)
  | indexed (file : Option String) (sections : List (Section (MapTree α)))

namespace MapTree

variable {α β : Type}

mutual

/-- Replaces every map of a tree, in the order given; the first failure ends it. -/
def traverse (read : α → Except DecodeError β) : MapTree α → Except DecodeError (MapTree β)
  | .single map => (read map).map .single
  | .indexed file sections => (traverseSections read sections).map (.indexed file)

def traverseSections (read : α → Except DecodeError β) :
    List (Section (MapTree α)) → Except DecodeError (List (Section (MapTree β)))
  | [] => .ok []
  | ⟨offset, url, none⟩ :: rest => do
    return ⟨offset, url, none⟩ :: (← traverseSections read rest)
  | ⟨offset, url, some map⟩ :: rest => do
    let map ← traverse read map
    return ⟨offset, url, some map⟩ :: (← traverseSections read rest)

end

end MapTree

/-- Moves a trace of a section to its place in the whole, if that fits words. -/
def Trace.moveBy? (offset : Point) (trace : Trace) : Option Trace := do
  let line ← sum? trace.generated.line offset.line
  let column ← sum? trace.generated.column (if trace.generated.line = 0 then offset.column else 0)
  return { trace with generated := ⟨line, column⟩ }

/-- The traces of a section at their places in the whole, if all have one. -/
def movedTraces? (offset : Point) (map : Option SourceMap) : Option (List Trace) := do
  (← map).traces.mapM (·.moveBy? offset)

/-- Joins the traces of sections, sorted by offset; sections of equal offset keep their order. The
first section that failed is the failure of the whole. There is no whole if some trace has no place
in it. -/
def joinSections (file : Option String)
    (sections : List (Point × Except DecodeError (Option SourceMap))) :
    Except DecodeError (Option SourceMap) := do
  let sorted := sections.mergeSort fun first second => first.1.le second.1
  let traces ← sorted.mapM fun (offset, map) => map.map (movedTraces? offset)
  return (traces.mapM id).map fun traces => SourceMap.ofTraces file traces.flatten

mutual

def MapTree.flatten : MapTree SourceMap → Except DecodeError (Option SourceMap)
  | .single map => .ok (some map)
  | .indexed file sections => joinSections file (flattenSections sections)

def flattenSections :
    List (Section (MapTree SourceMap)) → List (Point × Except DecodeError (Option SourceMap))
  | [] => []
  | ⟨offset, url, none⟩ :: rest => (offset, .error (.unresolvedSection url)) :: flattenSections rest
  | ⟨offset, _, some map⟩ :: rest => (offset, map.flatten) :: flattenSections rest

end

/-- The one map of a tree. A section without a map, wherever it is, comes before a trace without a
place. -/
def MapTree.join (tree : MapTree SourceMap) : Except DecodeError SourceMap := do
  match ← tree.flatten with
  | some map => return map
  | none => throw .overflow

end SingleFile
