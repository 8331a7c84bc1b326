import Mathlib.Data.List.Pairwise
import SingleFile.Component.Toolchain
import SingleFile.Files.Store
import SingleFile.Proofs.Dictionary
import SingleFile.Proofs.Except
import SingleFile.Proofs.Text.Path

/-! # Sections read from a store

A store keeps for each place the text that was added to it last, whichever spelling of the place it was
added under, and finds it under every spelling. So a section with a file of its own has the text last
added to the place that its path leads to from the document, as it is and wherever the section starts;
if nothing was added there, the failure names the path as it was put together.
-/

namespace SingleFile

open Text.Path

instance (first second : String) : Decidable (SamePlace first second) :=
  decidable_of_iff _ key_eq_key_iff

namespace FileStore

variable {history : List (String × String)} {path text : String}

/-- The store after texts were added under paths in this order. -/
def ofAdds (history : List (String × String)) : FileStore :=
  history.foldl (fun store added => store.add added.1 added.2) empty

theorem files_ofAdds (history : List (String × String)) :
    (ofAdds history).files = .ofList (history.map (Prod.map key id)) := by
  induction history using List.reverseRecOn with
  | nil => rfl
  | append_singleton rest added ih =>
    rw [List.map_append, List.map_singleton, Prod.map, Dictionary.ofList_concat, ← ih, ofAdds,
      List.foldl_append]
    rfl

/-- Under a path stands the text last added to the place. -/
theorem find?_ofAdds_eq_some_iff :
    (ofAdds history).find? path = some text ↔ LastWhere (SamePlace · path) history text := by
  rw [find?, files_ofAdds, Dictionary.find?_ofList_eq_some_iff, lastWhere_map_iff]
  simp only [key_eq_key_iff]

theorem find?_ofAdds_eq_none_iff :
    (ofAdds history).find? path = none ↔ ∀ added ∈ history, ¬ SamePlace added.1 path := by
  rw [find?, files_ofAdds, Dictionary.find?_ofList_eq_none_iff, List.forall_mem_map]
  simp only [Prod.map_fst, ne_eq, key_eq_key_iff]

theorem read_eq_ok_iff {store : FileStore} :
    store.read path = .ok text ↔ store.find? path = some text := by
  cases found : store.find? path <;> simp [read, found]

theorem read_eq_error_iff {store : FileStore} {cause : FileError} :
    store.read path = .error cause ↔ cause = .unknownPath path ∧ store.find? path = none := by
  cases found : store.find? path
  · simp [read, found, eq_comm]
  · simp [read, found]

/-- One path for each place that some paths name. -/
structure Chooses (paths chosen : List String) : Prop where
  given : ∀ path ∈ chosen, path ∈ paths
  covers : ∀ path ∈ paths, ∃ other ∈ chosen, SamePlace other path
  apart : chosen.Pairwise (¬ SamePlace · ·)

theorem exists_chooses (paths : List String) : ∃ chosen, Chooses paths chosen := by
  refine ⟨paths.pwFilter (¬ SamePlace · ·), ⟨?given, ?covers, List.pairwise_pwFilter paths⟩⟩
  case given => exact fun path member => List.pwFilter_subset paths member
  case covers =>
    intro path member
    by_contra lone
    have apart : ∀ other ∈ paths.pwFilter (¬ SamePlace · ·), ¬ SamePlace path other :=
      fun other chosen same => lone ⟨other, chosen, same.symm⟩
    rw [List.forall_mem_pwFilter] at apart
    · exact apart path member (.refl path)
    · intro first second third different
      by_contra alike
      rw [not_or, not_not, not_not] at alike
      exact different (alike.1.trans alike.2)

/-- A store has one file for each place that was added to. -/
theorem size_ofAdds {chosen : List String} (chooses : Chooses (history.map (·.1)) chosen) :
    (ofAdds history).size = chosen.length := by
  have nodup : (chosen.map key).Nodup := by
    rw [List.Nodup, List.pairwise_map]
    exact chooses.apart.imp fun different same => different (key_eq_key_iff.mp same)
  have keys : (history.map (Prod.map key id)).map (·.1) = (history.map (·.1)).map key := by
    rw [List.map_map, List.map_map]
    rfl
  have same : ∀ place, place ∈ chosen.map key ↔
      place ∈ (history.map (Prod.map key id)).map (·.1) := by
    intro place
    rw [keys]
    constructor
    · rw [List.mem_map]
      rintro ⟨path, member, rfl⟩
      exact List.mem_map_of_mem (chooses.given path member)
    · rw [List.mem_map]
      rintro ⟨path, member, rfl⟩
      obtain ⟨other, chosen, same⟩ := chooses.covers path member
      exact List.mem_map.mpr ⟨other, chosen, key_eq_key_iff.mpr same⟩
  rw [size, files_ofAdds, Dictionary.size_ofList nodup same, List.length_map]

/-- What a store says after texts were added: under every path the text last added to its place, and
that there is none where nothing was added. -/
structure KeepsLast (store : FileStore) (history : List (String × String)) : Prop where
  read : ∀ path text, store.read path = .ok text ↔ LastWhere (SamePlace · path) history text
  unread : ∀ path, (∃ cause, store.read path = .error cause) ↔
    ∀ added ∈ history, ¬ SamePlace added.1 path
  cause : ∀ path cause, store.read path = .error cause →
    cause = .unknownPath path ∧ cause.message = path ++ " not found"
  present : ∀ path, store.source.exists? path = true ↔ ∃ text, store.source.read path = .ok text
  size : ∃ places, Chooses (history.map (·.1)) places ∧ store.size = places.length

theorem keepsLast_ofAdds (history : List (String × String)) : (ofAdds history).KeepsLast history where
  read path text := by rw [read_eq_ok_iff, find?_ofAdds_eq_some_iff]
  unread path := by
    simp only [read_eq_error_iff, find?_ofAdds_eq_none_iff, exists_eq_left]
  cause path cause failure := by
    obtain ⟨rfl, -⟩ := read_eq_error_iff.mp failure
    exact ⟨rfl, rfl⟩
  present path := by
    simp only [source, read_eq_ok_iff, Option.isSome_iff_exists]
  size := by
    obtain ⟨chosen, chooses⟩ := exists_chooses (history.map (·.1))
    exact ⟨chosen, chooses, size_ofAdds chooses⟩

end FileStore

namespace Toolchain

variable {tools : Toolchain} {document : Document} {part : DocumentSection}

/-- The text of a section comes from a place: it is the text last added there, and the failure to find
one names the path and the document. -/
structure ReadsAt (tools : Toolchain) (document : Document) (part : DocumentSection) (path : String)
    (history : List (String × String)) : Prop where
  text : ∀ text, tools.sectionText document part = .ok text ↔
    LastWhere (SamePlace · path) history text
  failed : (∃ error, tools.sectionText document part = .error error) ↔
    ∀ added ∈ history, ¬ SamePlace added.1 path
  named : ∀ error, tools.sectionText document part = .error error →
    error = .externalSource path document.fileName (.unknownPath path)

theorem sectionText_external {path : String} (outside : part.content = .external path) :
    tools.sectionText document part =
      (tools.files.read (join document.directory path)).mapError fun cause =>
        .externalSource (join document.directory path) document.fileName cause := by
  cases read : tools.files.read (join document.directory path) <;>
    simp [sectionText, load, outside, read, Except.map, Except.mapError]

theorem readsAt_join {history : List (String × String)} {path : String}
    (files : tools.files = (FileStore.ofAdds history).source)
    (outside : part.content = .external path) :
    tools.ReadsAt document part (join document.directory path) history := by
  have keeps := FileStore.keepsLast_ofAdds history
  have stored : tools.files.read = (FileStore.ofAdds history).read := by rw [files]; rfl
  refine ⟨fun text => ?_, ?_, fun error failure => ?_⟩
  · rw [sectionText_external outside, stored, Except.mapError_eq_ok_iff, keeps.read]
  · rw [← keeps.unread, sectionText_external outside, stored]
    simp only [Except.mapError_eq_error_iff]
    constructor
    · rintro ⟨_, cause, failure, -⟩
      exact ⟨cause, failure⟩
    · rintro ⟨cause, failure⟩
      exact ⟨_, cause, failure, rfl⟩
  · rw [sectionText_external outside, stored, Except.mapError_eq_error_iff] at failure
    obtain ⟨cause, failure, rfl⟩ := failure
    rw [(keeps.cause _ _ failure).1]

end Toolchain

namespace FileStore

/-- After any texts were added, a store reads under every path the text last added to its place, by
whatever spelling, and fails under a path whose place was never added to; it has one file for each
place. The text of a section with a path of its own is read in the same way, from the directory of the
document, or from the path itself if that is absolute. -/
theorem keepsLast_and_readsAt (history : List (String × String)) :
    (ofAdds history).KeepsLast history ∧
      ∀ (tools : Toolchain) (document : Document) (part : DocumentSection) (path : String),
        tools.files = (ofAdds history).source → part.content = .external path →
          (path.toList.head? = some '/' → tools.ReadsAt document part path history) ∧
            tools.ReadsAt document part (join document.directory path) history := by
  refine ⟨keepsLast_ofAdds history, fun tools document part path files outside => ⟨?_, ?_⟩⟩
  · intro absolute
    have reads : tools.ReadsAt document part _ history := Toolchain.readsAt_join files outside
    rwa [join, if_pos absolute] at reads
  · exact Toolchain.readsAt_join files outside

/-- Texts added under two spellings of one place, and under a path from elsewhere. -/
def spelledHistory : List (String × String) :=
  [("/c//lib/./x.js", "old"), ("/c/lib/x.js/", "new"), ("c/lib/x.js", "other")]

def storedTools : Toolchain where
  registry := .standard
  config := .default
  files := (ofAdds spelledHistory).source

def outsideSection (path : String) : DocumentSection :=
  ⟨.script, none, 7, .external path⟩

def outsideDocument : Document :=
  ⟨"/c/F.vue", "", none, none, []⟩

/-- A section finds the later text under a third spelling; a step up in its path is not undone. -/
theorem keepsLast_and_readsAt_spelledHistory :
    storedTools.sectionText outsideDocument (outsideSection "./lib/x.js") = .ok "new" ∧
      storedTools.sectionText outsideDocument (outsideSection "../c/lib/x.js") =
        .error (.externalSource "/c/../c/lib/x.js" "/c/F.vue" (.unknownPath "/c/../c/lib/x.js")) ∧
      (ofAdds spelledHistory).size = 2 := by
  have readsAt := (keepsLast_and_readsAt spelledHistory).2 storedTools outsideDocument
  have found := (readsAt (outsideSection "./lib/x.js") "./lib/x.js" rfl rfl).2
  have lost := (readsAt (outsideSection "../c/lib/x.js") "../c/lib/x.js" rfl rfl).2
  refine ⟨?found, ?lost, by decide +kernel⟩
  case found =>
    refine (found.text "new").mpr ⟨[("/c//lib/./x.js", "old")], "/c/lib/x.js/",
      [("c/lib/x.js", "other")], rfl, ?_, ?_⟩ <;> decide +kernel
  case lost =>
    obtain ⟨error, failure⟩ := lost.failed.mpr (by decide +kernel)
    rw [failure, lost.named error failure]
    decide +kernel

end FileStore

end SingleFile
