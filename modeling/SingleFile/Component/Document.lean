import SingleFile.Text.Path

/-! # Component documents

A document holds at most one template, at most one script and any number of styles. The text of a
section stands in the document or in a file of its own.
-/

namespace SingleFile

inductive SectionKind where
  | template
  | script
  | style
deriving DecidableEq

def SectionKind.name : SectionKind → String
  | .template => "template"
  | .script => "script"
  | .style => "style"

/-- The language of a section that names none. -/
def SectionKind.defaultLanguage : SectionKind → String
  | .template => "html"
  | .script => "js"
  | .style => "css"

inductive SectionContent where
  | inline (text : String)
  | external (path : String)
deriving DecidableEq

/-- A section; `startLine` is the line of the document, counted from one, on which it starts. -/
structure DocumentSection where
  kind : SectionKind
  declared : Option String
  startLine : UInt32
  content : SectionContent
deriving DecidableEq

def DocumentSection.language (part : DocumentSection) : String :=
  part.declared.getD part.kind.defaultLanguage

structure Document where
  fileName : String
  text : String
  template : Option DocumentSection
  script : Option DocumentSection
  styles : List DocumentSection
deriving DecidableEq

/-- The directory that the paths of sections start from. -/
def Document.directory (document : Document) : String :=
  (Text.Path.parent? document.fileName).getD ""

end SingleFile
