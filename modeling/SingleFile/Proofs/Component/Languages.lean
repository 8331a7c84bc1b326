import SingleFile.Proofs.Component.Sections
import SingleFile.Proofs.Dictionary

/-! # The compiler of a section

A registry is known by the registrations that led to it. The language of a section is resolved in one
step, through a configured alias or else a built-in one, and the section goes to the compiler that was
registered last under the very name this gives. Registrations under other names and aliases of other
tags make no difference, and a section is refused for its language only if nothing was ever registered
under the name.
-/

namespace SingleFile

namespace Registry

variable {registry registry' : Registry} {history history' : List (String × BlockCompiler)}
  {language : String} {compile : BlockCompiler}

/-- A registry together with all that was registered in it, in this order. -/
inductive Reached : Registry → List (String × BlockCompiler) → Prop
  | empty : Reached .empty []
  | standard : Reached .standard [("js", passThrough), ("css", passThrough)]
  | register {registry : Registry} {history : List (String × BlockCompiler)}
      (reached : Reached registry history) (language : String) (compile : BlockCompiler) :
      Reached (registry.register language compile) (history ++ [(language, compile)])

/-- The compilers of a registry are those of its registrations. -/
theorem Reached.compilers_eq (reached : registry.Reached history) :
    registry.compilers = .ofList history := by
  induction reached with
  | empty => rfl
  | standard => rfl
  | register reached language compile ih =>
    rw [Dictionary.ofList_concat, ← ih]
    rfl

theorem Reached.find?_eq_some_iff (reached : registry.Reached history) :
    registry.find? language = some compile ↔ LastWhere (· = language) history compile := by
  rw [find?, reached.compilers_eq, Dictionary.find?_ofList_eq_some_iff]

theorem Reached.find?_eq_none_iff (reached : registry.Reached history) :
    registry.find? language = none ↔ ∀ entry ∈ history, entry.1 ≠ language := by
  rw [find?, reached.compilers_eq, Dictionary.find?_ofList_eq_none_iff]

/-- Only registrations under a name count for the name. -/
theorem Reached.find?_congr (reached : registry.Reached history)
    (reached' : registry'.Reached history')
    (same : history'.filter (·.1 = language) = history.filter (·.1 = language)) :
    registry'.find? language = registry.find? language := by
  apply Option.ext
  intro compile
  rw [reached'.find?_eq_some_iff, reached.find?_eq_some_iff, ← lastWhere_filter_iff, same,
    lastWhere_filter_iff]

end Registry

namespace Config

variable {config config' : Config} {tag name : String}

/-- What a language tag stands for: its configured alias, else its built-in one, else itself. -/
inductive Resolves (config : Config) (tag : String) : String → Prop
  | configured {name : String} (found : config.aliases.find? tag = some name) :
      Resolves config tag name
  | builtin {name : String} (unset : config.aliases.find? tag = none)
      (found : builtinAlias? tag = some name) : Resolves config tag name
  | itself (unset : config.aliases.find? tag = none) (plain : builtinAlias? tag = none) :
      Resolves config tag tag

theorem resolve_eq_iff : config.resolve tag = name ↔ config.Resolves tag name := by
  constructor
  · rintro rfl
    cases own : config.aliases.find? tag with
    | some name =>
      rw [resolve, own]
      exact .configured own
    | none =>
      cases built : builtinAlias? tag with
      | some name =>
        rw [resolve, own, built]
        exact .builtin own built
      | none =>
        rw [resolve, own, built]
        exact .itself own built
  · intro resolves
    cases resolves with
    | configured found => rw [resolve, found]; rfl
    | builtin unset found => rw [resolve, unset, found]; rfl
    | itself unset plain => rw [resolve, unset, plain]; rfl

/-- Only the alias of a tag counts for the tag. -/
theorem resolve_congr (same : config'.aliases.find? tag = config.aliases.find? tag) :
    config'.resolve tag = config.resolve tag := by
  rw [resolve, resolve, same]

end Config

namespace Toolchain

variable {tools tools' : Toolchain} {document : Document} {part : DocumentSection}
  {source : SectionText} {language : String} {history : List (String × BlockCompiler)}

/-- Two sets of tools deal alike with one language tag: they have had the same registrations under
what it stands for, the same alias for it, and keep maps or drop them alike. -/
structure AgreeOn (tools tools' : Toolchain) (tag language : String)
    (history history' : List (String × BlockCompiler)) : Prop where
  registrations : history'.filter (·.1 = language) = history.filter (·.1 = language)
  aliases : tools'.config.aliases.find? tag = tools.config.aliases.find? tag
  maps : tools'.config.sourceMap = tools.config.sourceMap

/-- A section of a loaded text goes to the compiler registered last under a name, and depends on
nothing else that was registered or configured. -/
structure GoesTo (tools : Toolchain) (history : List (String × BlockCompiler)) (document : Document)
    (part : DocumentSection) (source : SectionText) (language : String) : Prop where
  compiled : ∀ compile block, LastWhere (· = language) history compile →
    compile source.text document.fileName = .ok block →
    tools.compile document part =
      .ok (source, { block with map := if tools.config.sourceMap then block.map else none })
  failed : ∀ compile text, LastWhere (· = language) history compile →
    compile source.text document.fileName = .error text →
    tools.compile document part = .error (.block text)
  unknown : tools.compile document part = .error (.unknownLanguage language part.kind) ↔
    ∀ entry ∈ history, entry.1 ≠ language
  named : ∀ name kind, tools.compile document part = .error (.unknownLanguage name kind) →
    name = language ∧ kind = part.kind
  unaffected : ∀ tools' history', tools'.registry.Reached history' →
    tools.AgreeOn tools' part.language language history history' →
    tools'.load document part = tools.load document part →
    tools'.compile document part = tools.compile document part

theorem compile_of_loaded (loaded : tools.load document part = .ok source) :
    tools.compile document part =
      (tools.compileText document part source.text).map fun block => (source, block) := by
  rw [compile, loaded]
  cases compiled : tools.compileText document part source.text <;>
    simp only [bind, Except.bind, compiled, Except.map, pure, Except.pure]

theorem compileText_eq_unknownLanguage_iff {text name : String} {kind : SectionKind} :
    tools.compileText document part text = .error (.unknownLanguage name kind) ↔
      tools.registry.find? (tools.config.resolve part.language) = none ∧
        name = tools.config.resolve part.language ∧ kind = part.kind := by
  cases known : tools.registry.find? (tools.config.resolve part.language) with
  | none =>
    simp only [compileText, known, Except.error.injEq, CompileError.unknownLanguage.injEq, true_and]
    exact and_congr eq_comm eq_comm
  | some compile =>
    cases compiled : compile text document.fileName <;> simp [compileText, known, compiled]

/-- What a text is compiled to depends on the resolved language, its compiler and whether maps are
kept. -/
theorem compileText_congr {text : String}
    (language : tools'.config.resolve part.language = tools.config.resolve part.language)
    (compiler : tools'.registry.find? (tools.config.resolve part.language) =
      tools.registry.find? (tools.config.resolve part.language))
    (maps : tools'.config.sourceMap = tools.config.sourceMap) :
    tools'.compileText document part text = tools.compileText document part text := by
  rw [compileText, compileText, language, compiler, maps]

/-- A section whose text can be loaded is compiled by the compiler registered last under what its
language tag stands for. It is refused for its language only if no compiler was ever registered under
that name, and depends on no other registration and no other alias. -/
theorem goesTo_of_reached (reached : tools.registry.Reached history)
    (resolves : tools.config.Resolves part.language language)
    (loaded : tools.load document part = .ok source) :
    tools.GoesTo history document part source language := by
  obtain rfl := Config.resolve_eq_iff.mpr resolves
  refine ⟨?compiled, ?failed, ?unknown, ?named, ?unaffected⟩
  case compiled =>
    intro compile block last success
    rw [compile_eq_ok_iff, compileText_eq_ok_iff]
    exact ⟨load_eq_ok_iff.mp loaded, compile, block, reached.find?_eq_some_iff.mpr last, success, rfl⟩
  case failed =>
    intro compile text last failure
    have known := reached.find?_eq_some_iff.mpr last
    rw [compile_of_loaded loaded, compileText, known]
    simp only [failure]
    rfl
  case unknown =>
    rw [compile_of_loaded loaded, Except.map_eq_error_iff, compileText_eq_unknownLanguage_iff,
      reached.find?_eq_none_iff]
    exact and_iff_left ⟨rfl, rfl⟩
  case named =>
    intro name kind failure
    rw [compile_of_loaded loaded, Except.map_eq_error_iff] at failure
    exact (compileText_eq_unknownLanguage_iff.mp failure).2
  case unaffected =>
    intro tools' history' reached' agree same
    have language := Config.resolve_congr agree.aliases
    have compiler := reached.find?_congr reached' agree.registrations
    rw [compile_of_loaded (same.trans loaded), compile_of_loaded loaded,
      compileText_congr language compiler agree.maps]

/-- Puts a mark behind the text it is given. -/
def marking (mark : String) : BlockCompiler :=
  fun source _ => .ok ⟨source ++ mark, none⟩

/-- Registrations with a replaced compiler and one that only a second alias would lead to. -/
def markingRegistry : Registry :=
  ((Registry.standard.register "js" (marking "1")).register "css" (marking "2")).register "js"
    (marking "3")

def markingHistory : List (String × BlockCompiler) :=
  [("js", passThrough), ("css", passThrough), ("js", marking "1"), ("css", marking "2"),
    ("js", marking "3")]

/-- Aliases in a circle, the first of which hides a built-in one. -/
def circularTools : Toolchain where
  registry := markingRegistry
  config := { Config.default with aliases := .ofList [("ts", "js"), ("js", "css"), ("css", "ts")] }
  files := ⟨fun _ => false, fun _ => .error .missing⟩

def taggedSection : DocumentSection :=
  ⟨.script, some "ts", 2, .inline "x"⟩

def taggedDocument : Document :=
  ⟨"/c/F.vue", "<script lang=ts>\nx</script>", none, some taggedSection, []⟩

/-- The alias is followed once, to the compiler that was registered last. -/
theorem goesTo_circularTools :
    circularTools.registry.Reached markingHistory ∧
      circularTools.config.Resolves taggedSection.language "js" ∧
      circularTools.load taggedDocument taggedSection = .ok ⟨"\nx", false⟩ ∧
      circularTools.compile taggedDocument taggedSection = .ok (⟨"\nx", false⟩, ⟨"\nx3", none⟩) := by
  have reached : circularTools.registry.Reached markingHistory :=
    ((Registry.Reached.standard.register "js" (marking "1")).register "css" (marking "2")).register
      "js" (marking "3")
  have resolves : circularTools.config.Resolves taggedSection.language "js" := .configured rfl
  have loaded : circularTools.load taggedDocument taggedSection = .ok ⟨"\nx", false⟩ := rfl
  have last : LastWhere (· = "js") markingHistory (marking "3") :=
    ⟨markingHistory.dropLast, "js", [], rfl, rfl, fun _ none => absurd none List.not_mem_nil⟩
  exact ⟨reached, resolves, loaded,
    (goesTo_of_reached reached resolves loaded).compiled _ _ last rfl⟩

end Toolchain

end SingleFile
