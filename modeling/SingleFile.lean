import SingleFile.Component.Assembly
import SingleFile.Files.Store
import SingleFile.Files.Tree
import SingleFile.Proofs.Component.ModuleText
import SingleFile.Proofs.Except
import SingleFile.Proofs.SourceMap.StableOrder
import SingleFile.Proofs.SourceMap.Builder
import SingleFile.Proofs.SourceMap.DocumentMap
import SingleFile.Proofs.Component.Assembly
import SingleFile.Proofs.SourceMap.MappedLines
import SingleFile.Proofs.Component.Separation
import SingleFile.Proofs.SourceMap.Vlq
import SingleFile.Proofs.SourceMap.Mappings
import SingleFile.Proofs.Json.Quoted
import SingleFile.Proofs.Json.RoundTrip
import SingleFile.Proofs.SourceMap.RoundTrip
import SingleFile.Proofs.SourceMap.Faults
import SingleFile.Proofs.SourceMap.Stability
import SingleFile.Proofs.Component.Failures
import SingleFile.Proofs.Component.Dependence
import SingleFile.Proofs.Component.PassThrough
import SingleFile.Proofs.SourceMap.ExactPositions
import SingleFile.Proofs.Text.Base64
import SingleFile.Proofs.Component.Sections
import SingleFile.Proofs.Component.WithinSource
import SingleFile.Proofs.Component.Unmapped
import SingleFile.Proofs.Component.Inlining
import SingleFile.Proofs.Component.Fragments
import SingleFile.Proofs.SourceMap.Edits
import SingleFile.Proofs.SourceMap.Indexed
import SingleFile.Proofs.Dictionary
import SingleFile.Proofs.Component.Languages
import SingleFile.Proofs.Text.Path
import SingleFile.Proofs.Component.StoredSections
import SingleFile.Proofs.Json.Fields
import SingleFile.Proofs.SourceMap.FunctionTables
import SingleFile.Proofs.Json.Grammar
import SingleFile.Proofs.Component.Config
import SingleFile.Proofs.Text.LineBreaks
import SingleFile.Proofs.Text.BaseName
