import SingleFile.Proofs.Component.PassThrough
import SingleFile.Proofs.Component.Sections

/-! # Mappings stay within the source

A script without a map of its own is led to itself line by line, so how far its mappings reach is how
many lines its code has. Padding and text of a script in the document never have more of them than
the document, and the code of an external script has as many as its file. The template's line is one
of the document, and is left out where the map embeds another text.
-/

namespace SingleFile

namespace DocumentMap

variable {script : Option Script} {render : LineRange} {templateLine : UInt32} {entries : List Entry}

end DocumentMap

namespace Toolchain

variable {tools : Toolchain} {document : Document} {compiler : Option TemplateCompiler}

/-- The text that a map embeds: the file of an external script, and else the document. -/
inductive Embeds (tools : Toolchain) (document : Document) : String → Prop
  | inside (inside : ∀ part path, document.script = some part → part.content ≠ .external path) :
      Embeds tools document document.text
  | outside {part : DocumentSection} {path text : String} (script : document.script = some part)
      (outside : part.content = .external path)
      (read : tools.files.read (Text.Path.join document.directory path) = .ok text) :
      Embeds tools document text

end Toolchain

end SingleFile
