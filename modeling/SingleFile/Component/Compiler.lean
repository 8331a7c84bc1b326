import SingleFile.Dictionary

/-! # Compilers and their registry

A block compiler turns the text of a section into code, with a map or without one; a template
compiler turns a template into the code of a render function. Both are told the document's file
name and may fail with a text. The registry keeps one block compiler per canonical language.
-/

namespace SingleFile

structure CompiledBlock where
  code : String
  map : Option String
deriving DecidableEq

abbrev BlockCompiler := (source fileName : String) → Except String CompiledBlock

abbrev TemplateCompiler := (source fileName : String) → Except String String

/-- Leaves a text as it is. -/
def passThrough : BlockCompiler :=
  fun source _ => .ok ⟨source, none⟩

structure Registry where
  compilers : Dictionary String BlockCompiler

namespace Registry

def empty : Registry :=
  ⟨.empty⟩

def register (registry : Registry) (language : String) (compiler : BlockCompiler) : Registry :=
  ⟨registry.compilers.insert language compiler⟩

/-- The registry with the two languages that need no compiling. -/
def standard : Registry :=
  (empty.register "js" passThrough).register "css" passThrough

def find? (registry : Registry) (language : String) : Option BlockCompiler :=
  registry.compilers.find? language

theorem find?_register (registry : Registry) (language other : String) (compiler : BlockCompiler) :
    (registry.register language compiler).find? other =
      if language = other then some compiler else registry.find? other :=
  registry.compilers.find?_insert _ _ _

end Registry

end SingleFile
