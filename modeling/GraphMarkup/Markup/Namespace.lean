import GraphMarkup.Markup.Scanner

/-!
# Namespaces

A tag may bind qualifiers to namespaces for its element. A name resolves to
the namespace of its qualifier, or to the default namespace if it has none. A
declaration with an empty value takes a binding back.
-/

namespace GraphMarkup.Markup

open GraphMarkup.Text

/-- The namespace of a name. -/
inductive Resolution where
  | bound (uri : Bytes)
  | unbound
  /-- The qualifier of the name is not declared. -/
  | unknown (qualifier : Bytes)
deriving DecidableEq, Repr

/-- A declared namespace; the empty qualifier stands for the default. -/
structure Binding where
  qualifier : Bytes
  uri : Bytes
deriving DecidableEq, Repr

/-- The bindings in force at some place, the latest first. -/
abbrev Scope :=
  List Binding

namespace Scope

/-- The bindings in force outside of all elements. -/
def initial : Scope :=
  [⟨bytesOf "xml", bytesOf xmlNamespace⟩, ⟨bytesOf "xmlns", bytesOf xmlnsNamespace⟩]

/-- The namespace of an element with the given name. -/
def resolve (scope : Scope) (name : Bytes) : Resolution :=
  match qualifier? name with
  | none =>
      match scope.find? (·.qualifier.isEmpty) with
      | none => .unbound
      | some binding => if binding.uri.isEmpty then .unbound else .bound binding.uri
  | some qualifier =>
      match scope.find? fun binding =>
          !binding.qualifier.isEmpty && binding.qualifier == qualifier with
      | none => .unknown qualifier
      | some binding => if binding.uri.isEmpty then .unknown qualifier else .bound binding.uri

end Scope

/-- What an attribute declares if it declares a namespace. -/
inductive DeclaredName where
  | default
  | qualifier (name : Bytes)
deriving DecidableEq, Repr

/-- What an attribute with the given key declares. -/
def declaredName? (key : Bytes) : Option DeclaredName :=
  match dropPrefix? (bytesOf "xmlns") key with
  | some [] => some .default
  | some (colon :: name) => if colon == byteOf ':' then some (.qualifier name) else none
  | none => none

/-- The bindings in force behind one attribute. -/
def Scope.declare (scope : Scope) (declaration : Attribute) : Except NamespaceError Scope :=
  let uri := declaration.value
  match declaredName? declaration.key with
  | none => .ok scope
  | some .default => .ok (⟨[], uri⟩ :: scope)
  | some (.qualifier name) =>
      if name = bytesOf "xml" then
        if uri = bytesOf xmlNamespace then .ok scope else .error (.xmlBound uri)
      else if name = bytesOf "xmlns" then .error (.xmlnsBound uri)
      else if uri = bytesOf xmlNamespace then .error (.boundToXml name)
      else if uri = bytesOf xmlnsNamespace then .error (.boundToXmlns name)
      else .ok (⟨name, uri⟩ :: scope)

/-- The bindings in force inside an element. Its attributes count up to the
first fault. -/
def Scope.enter (scope : Scope) (tag : Tag) : Except NamespaceError Scope :=
  (tag.attributes false).found.foldlM Scope.declare scope

/-- An event whose element, if it has one, is resolved. -/
structure Resolved where
  resolution : Resolution
  event : Event
deriving DecidableEq, Repr

/-- Resolve the names in a trace. `scope` holds inside the innermost open
element and `outer` inside the elements around it. -/
def resolveFrom (scope : Scope) (outer : List Scope) : Trace Event → Trace Resolved
  | .ended => .ended
  | .failed error start stop => .failed error start stop
  | .item event start rest =>
      match event with
      | .opening tag =>
          match scope.enter tag with
          | .error cause => .failed (.binding cause) start start
          | .ok inner =>
              .item ⟨inner.resolve tag.name, event⟩ start
                (resolveFrom inner (scope :: outer) rest)
      | .empty tag =>
          match scope.enter tag with
          | .error cause => .failed (.binding cause) start start
          | .ok inner =>
              .item ⟨inner.resolve tag.name, event⟩ start (resolveFrom scope outer rest)
      | .closing name =>
          .item ⟨scope.resolve name, event⟩ start
            (resolveFrom (outer.headD scope) outer.tail rest)
      | _ => .item ⟨.unbound, event⟩ start (resolveFrom scope outer rest)

/-- The resolved events of a document. -/
def read (document : Bytes) : Trace Resolved :=
  resolveFrom Scope.initial [] (scan document)

end GraphMarkup.Markup
