import GraphMarkup.Proofs.Markup.Forest
import GraphMarkup.Validation.Validator

/-!
# Valid documents

What it means for a document to be valid is defined here on its tree, clause by
clause and without regard to the order in which a checker finds faults. The
elements that a schema speaks of are those that stand in no element with
arbitrary content.
-/

namespace GraphMarkup.Markup

open GraphMarkup.Text

/-- The local name and the value of an attribute, unless it declares a namespace. -/
def Attribute.namedValue? (found : Attribute) : Option (String × String) :=
  if (declaredName? found.key).isSome then none
  else some (shownName (localName found.key), textOf found.value)

/-- The attributes of an element that declare no namespace, by local name. -/
def Element.values (element : Element) : List (String × String) :=
  element.attributes.filterMap Attribute.namedValue?

/-- The name and the value of an attribute can be read, unless it declares a namespace. -/
def Attribute.IsReadable (found : Attribute) : Prop :=
  declaredName? found.key = none →
    (∃ name, decodeUtf8 (localName found.key) = .ok name) ∧
      ∃ value, rawText found.value = .ok value

/-- The attributes of an element are complete, no two of them have one key, and those that declare
no namespace can be read. -/
structure Element.HasReadableAttributes (element : Element) : Prop where
  complete : (element.tag.attributes true).error? = none
  readable : ∀ found ∈ element.attributes, found.IsReadable

theorem Element.WellFormed.hasReadableAttributes {element : Element}
    (wellFormed : element.WellFormed) : element.HasReadableAttributes :=
  ⟨wellFormed.complete, fun found member _ =>
    ⟨wellFormed.keyed found member, wellFormed.valued found member⟩⟩

/-- The value that an element has under a local name. -/
def Element.value? (element : Element) (name : String) : Option String :=
  element.values.lookup name

end GraphMarkup.Markup

namespace GraphMarkup.Validation

open GraphMarkup.Document
open GraphMarkup.Markup
open GraphMarkup.Schema
open GraphMarkup.Text

section

variable (schema : Schema)

/-- Any content may stand in an element, and nothing in it is checked. -/
def takesAnything (element : Element) : Bool :=
  (schema.element? element.name).any (·.anyChildren)

/-- Character data may stand in an element. -/
def takesText (element : Element) : Bool :=
  (schema.element? element.name).any (·.textAllowed)

/-- What stands in these elements is checked: none of them has arbitrary content. -/
def IsChecked (ancestors : List Element) : Prop :=
  ∀ ancestor ∈ ancestors, takesAnything schema ancestor = false

instance (ancestors : List Element) : Decidable (IsChecked schema ancestors) :=
  inferInstanceAs (Decidable (∀ ancestor ∈ ancestors, takesAnything schema ancestor = false))

/-- The namespace of an element is the one the schema is about. -/
def InTarget (element : Element) : Prop :=
  element.namespace? = schema.targetNamespace?.map encodeUtf8

instance (element : Element) : Decidable (InTarget schema element) :=
  inferInstanceAs (Decidable (_ = _))

/-- The element at a place, if it is checked. -/
def checkedElement? (place : Place) : Option Element :=
  match place.node with
  | .element head _ => if IsChecked schema place.ancestors then some head else none
  | .leaf _ => none

/-- The checked elements among some places. -/
def checkedElements (places : List Place) : List Element :=
  places.filterMap (checkedElement? schema)

/-- An element is declared, is of the schema's namespace, and is allowed in the
element around it. -/
structure Belongs (ancestors : List Element) (element : Element) : Prop where
  declared : (schema.element? element.name).isSome
  inTarget : InTarget schema element
  allowed : ∀ parent ∈ ancestors.head?,
    (schema.element? parent.name).any (·.children.contains element.name)

/-- The value of an attribute is one that it may have. Nothing is known about the
values of attributes with a qualifier. -/
def AcceptsValue (found : Attribute) : Prop :=
  declaredName? found.key = none → qualifier? found.key = none →
    (schema.lexicalSpace (shownName found.key)).accepts (textOf found.value)

/-- An element has the attributes that it has to have, with values that they may
have. -/
structure HasValidAttributes (element : Element) : Prop where
  required : ∀ declaration ∈ schema.element? element.name,
    ∀ name ∈ declaration.required, (element.value? (unqualified name)).isSome
  accepted : ∀ found ∈ element.attributes, AcceptsValue schema found

/-- Character data that is not blank stands in an element, which may hold it. -/
def MayHoldText (ancestors : List Element) (text : String) : Prop :=
  (∃ char ∈ text.toList, isBlank char = false) →
    ∃ parent around, ancestors = parent :: around ∧
      (IsChecked schema around → takesText schema parent)

end

/-- The definition that a document type names is one of graph documents. It may be
unknown if the settings allow that. -/
def DoctypeAccepted (resolver : Resolver) (settings : Settings) (content : Bytes) : Prop :=
  ∀ systemId, systemId? (decodeUtf8Lossy content) = some systemId →
    (∃ bytes definition, resolver.resolve systemId = .ok (some bytes) ∧
      decodeUtf8 bytes = .ok definition ∧ rootDeclaration.toList <:+: definition.toList) ∨
    (resolver.resolve systemId = .ok none ∧ settings.requireDoctypeResolution = false)

/-- The value of an attribute at an element, if the element has a name. -/
def valueAt? (elementName attributeName : String) (element : Element) : Option String :=
  if elementName = element.name then element.value? attributeName else none

/-- The values of an attribute at the elements with a name. -/
def valuesAt (elementName attributeName : String) (elements : List Element) : List String :=
  elements.filterMap (valueAt? elementName attributeName)

/-- A document is valid for a schema. -/
structure Valid (resolver : Resolver) (settings : Settings) (schema : Schema)
    (nodes : List Node) : Prop where
  /-- There is one root, a graphml element in the schema's namespace. -/
  root : ∃ root children, Forest.roots nodes = [(root, children)] ∧
    root.name = ElementName.graphml ∧ InTarget schema root
  /-- Elements are not nested too deeply. -/
  nested : ∀ ancestors head children,
    ⟨ancestors, .element head children⟩ ∈ Forest.places [] nodes →
      ancestors.length < settings.maxNestingDepth
  /-- Checked elements stand where the schema allows them. -/
  placed : ∀ ancestors head children,
    ⟨ancestors, .element head children⟩ ∈ Forest.places [] nodes →
      IsChecked schema ancestors → Belongs schema ancestors head
  /-- Checked elements have valid attributes. -/
  attributed : ∀ element ∈ checkedElements schema (Forest.places [] nodes),
    HasValidAttributes schema element
  /-- Character data stands where the schema allows it. -/
  text : ∀ ancestors event, ⟨ancestors, .leaf event⟩ ∈ Forest.places [] nodes →
    MayHoldText schema ancestors (characterData [.leaf event])
  /-- Document types are those of graph documents. -/
  doctype : ∀ ancestors content, ⟨ancestors, .leaf (.doctype content)⟩ ∈ Forest.places [] nodes →
    DoctypeAccepted resolver settings content
  /-- No two checked elements have the same value of a key. -/
  unique : ∀ key ∈ schema.keys,
    (valuesAt key.element key.attributeName
      (checkedElements schema (Forest.places [] nodes))).Nodup
  /-- Every reference is to a value of the key that it is for, if there is such a key. -/
  resolved : ∀ reference ∈ schema.references,
    ∀ key ∈ schema.keys.find? (·.name = reference.refer),
      ∀ value ∈ valuesAt reference.element reference.attributeName
          (checkedElements schema (Forest.places [] nodes)),
        value ∈ valuesAt key.element key.attributeName
          (checkedElements schema (Forest.places [] nodes))

end GraphMarkup.Validation
