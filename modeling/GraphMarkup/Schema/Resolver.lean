import GraphMarkup.Error
import GraphMarkup.Schema.Embedded

/-!
# Resolvers

A resolver serves documents by location. It may not know a location, and it
may know one whose document cannot be had. The documents that it can serve
are finitely many, which is why following the references in them ends.
-/

namespace GraphMarkup.Schema

open GraphMarkup.Text

/-- A source of documents. -/
structure Resolver where
  resolve : String → Except Error (Option Bytes)
  /-- All documents that are ever served. -/
  documents : List Bytes
  serves : ∀ location document, resolve location = .ok (some document) → document ∈ documents

namespace Resolver

/-- The resolver that knows no location. -/
def nothing : Resolver where
  resolve _ := .ok none
  documents := []
  serves := by simp

/-- The resolver that looks locations up in a list. -/
def ofList (entries : List (String × Except Error Bytes)) : Resolver where
  resolve location :=
    match entries.lookup location with
    | none => .ok none
    | some served => served.map some
  documents := entries.filterMap fun entry => entry.2.toOption
  serves location document served := by
    split at served
    · simp at served
    · rename_i answer found
      obtain ⟨before, behind, same, _⟩ := List.lookup_eq_some_iff.1 found
      refine List.mem_filterMap.2 ⟨(location, answer), by rw [same]; simp, ?_⟩
      cases answer with
      | error => cases served
      | ok bytes => cases served; rfl

/-- The resolver that asks `fallback` for what `first` does not know. -/
def orElse (first fallback : Resolver) : Resolver where
  resolve location := do
    match ← first.resolve location with
    | some document => pure (some document)
    | none => fallback.resolve location
  documents := first.documents ++ fallback.documents
  serves location document served := by
    simp only [bind, Except.bind] at served
    split at served
    · simp at served
    · rename_i answer found
      cases answer with
      | none => exact List.mem_append_right _ (fallback.serves location document served)
      | some other =>
        cases served
        exact List.mem_append_left _ (first.serves location document found)

/-- The last segment of a location: what stands behind the last slash or
backslash, slashes at the end left aside. -/
def lastSegment (location : String) : String :=
  let chars := dropRightWhile (· == '/') location.toList
  let segment := chars.reverse.takeWhile fun char => char != '/' && char != '\\'
  String.ofList segment.reverse

/-- The resolver of the embedded documents, which go by their names in
whatever place. -/
def embedded : Resolver where
  resolve location := .ok ((Embedded.find? (lastSegment location)).map encodeUtf8)
  documents := Embedded.documents.map fun entry => encodeUtf8 entry.2
  serves location document served := by
    simp only [Embedded.find?, Except.ok.injEq, Option.map_eq_some_iff] at served
    obtain ⟨text, found, rfl⟩ := served
    obtain ⟨before, behind, same, _⟩ := List.lookup_eq_some_iff.1 found
    exact List.mem_map.2 ⟨(lastSegment location, text), by rw [same]; simp, rfl⟩

end Resolver

end GraphMarkup.Schema
