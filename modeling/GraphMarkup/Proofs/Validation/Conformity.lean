import GraphMarkup.Proofs.Markup.Outline
import GraphMarkup.Proofs.Validation.Clauses

/-!
# Outlines that conform to a schema

An outline conforms to a schema if each of its elements may stand where it does,
with its attributes and its text. All places in the tree of such an outline are
valid by themselves, so what is left to check is keys and references.
-/

namespace GraphMarkup.Markup

open GraphMarkup.Text

namespace Heading

variable (heading : Heading) (resolution : Resolution)

/-- None of the attributes of a heading declares a namespace, and no key has a qualifier. -/
theorem values_element : (heading.element resolution).values = heading.attributes := by
  have attributes : (heading.element resolution).attributes =
      heading.attributes.map writtenAttribute := heading.writable.attributes_writtenElement
  have named : ∀ entry ∈ heading.attributes,
      (writtenAttribute entry).namedValue? = some entry := by
    intro entry member
    have plain := heading.writable.keyed entry member
    have undeclaring := declaredName?_bytesOf plain
    rw [if_neg (heading.undeclaring entry member)] at undeclaring
    rw [Attribute.namedValue?, writtenAttribute, undeclaring, plain.localName_bytesOf,
      shownName_eq_of_decodeUtf8_eq plain.decodeUtf8_bytesOf,
      textOf_eq_of_rawText_eq (rawText_encodeUtf8_escape entry.2)]
    rfl
  have all : heading.attributes.filterMap (Attribute.namedValue? ∘ writtenAttribute) =
      heading.attributes.filterMap some := List.filterMap_congr named
  rw [Element.values, attributes, List.filterMap_map, all]
  exact List.filterMap_some

@[simp]
theorem value?_element (name : String) :
    (heading.element resolution).value? name = heading.attributes.lookup name := by
  rw [Element.value?, values_element]

end Heading

/-! ## Headings of outlines -/

mutual

/-- The headings of an outline, in the order of the document. -/
def Outline.headings : Outline → List Heading
  | .value heading _ => [heading]
  | .branch heading children => heading :: Outlines.headings children

/-- The headings of a list of outlines. -/
def Outlines.headings : List Outline → List Heading
  | [] => []
  | outline :: outlines => outline.headings ++ Outlines.headings outlines

end

theorem Forest.places_append (ancestors : List Element) (front back : List Node) :
    Forest.places ancestors (front ++ back) =
      Forest.places ancestors front ++ Forest.places ancestors back := by
  induction front with
  | nil => rfl
  | cons node front ih =>
    rw [List.cons_append, Forest.places, ih, Forest.places, List.append_assoc]

end GraphMarkup.Markup

namespace GraphMarkup.Validation

open GraphMarkup.Document
open GraphMarkup.Markup
open GraphMarkup.Schema
open GraphMarkup.Text

section

variable (settings : Settings) (schema : Schema)

/-- An element may stand in an element with the name `parent`, inside `depth` others, with
its attributes. -/
structure HeadingConforms (depth : Nat) (parent : String) (heading : Heading) : Prop where
  nested : depth < settings.maxNestingDepth
  allowed : (schema.element? parent).any (·.children.contains heading.name)
  declared : (schema.element? heading.name).isSome
  required : ∀ declaration ∈ schema.element? heading.name,
    ∀ name ∈ declaration.required, (heading.attributes.lookup (unqualified name)).isSome
  accepted : ∀ entry ∈ heading.attributes, (schema.lexicalSpace entry.1).accepts entry.2

mutual

/-- All elements of an outline may stand where they do, and so may its texts. -/
def OutlineConforms (depth : Nat) (parent : String) : Outline → Prop
  | .value heading _ =>
      HeadingConforms settings schema depth parent heading ∧
        (schema.element? heading.name).any (·.textAllowed)
  | .branch heading children =>
      HeadingConforms settings schema depth parent heading ∧
        (schema.element? heading.name).any (·.anyChildren) = false ∧
          OutlinesConform (depth + 1) heading.name children

/-- All elements of some outlines may stand where they do, and so may their texts. -/
def OutlinesConform (depth : Nat) (parent : String) : List Outline → Prop
  | [] => True
  | outline :: outlines =>
      OutlineConforms depth parent outline ∧ OutlinesConform depth parent outlines

end

end

section

variable {resolver : Resolver} {settings : Settings} {schema : Schema}

theorem outlinesConform_iff {depth : Nat} {parent : String} {outlines : List Outline} :
    OutlinesConform settings schema depth parent outlines ↔
      ∀ outline ∈ outlines, OutlineConforms settings schema depth parent outline := by
  induction outlines with
  | nil => simp [OutlinesConform]
  | cons outline outlines ih => simp [OutlinesConform, ih]

variable (resolver settings schema) in
/-- All places in some nodes are valid by themselves, and `elements` are the elements
at them that are checked. -/
structure Passes (ancestors : List Element) (nodes : List Node) (elements : List Element) :
    Prop where
  each : ∀ place ∈ Forest.places ancestors nodes, PlaceValid resolver settings schema place
  checked : checkedElements schema (Forest.places ancestors nodes) = elements

namespace Passes

variable {ancestors : List Element}

theorem nil : Passes resolver settings schema ancestors [] [] := by
  constructor
  · intro place member
    cases member
  · rfl

theorem append {front back : List Node} {first second : List Element}
    (passes : Passes resolver settings schema ancestors front first)
    (passes' : Passes resolver settings schema ancestors back second) :
    Passes resolver settings schema ancestors (front ++ back) (first ++ second) := by
  constructor
  · intro place member
    rw [Forest.places_append, List.mem_append] at member
    rcases member with member | member
    · exact passes.each place member
    · exact passes'.each place member
  · rw [Forest.places_append, checkedElements_append, passes.checked, passes'.checked]

theorem element {head : Element} {children : List Node} {elements : List Element}
    (checked : IsChecked schema ancestors) (nested : ancestors.length < settings.maxNestingDepth)
    (rooted : ancestors = [] → head.name = ElementName.graphml)
    (belongs : Belongs schema ancestors head) (attributed : HasValidAttributes schema head)
    (inside : Passes resolver settings schema (head :: ancestors) children elements) :
    Passes resolver settings schema ancestors [.element head children] (head :: elements) := by
  constructor
  · intro place member
    rw [Forest.places, Forest.places, List.append_nil, Node.places, List.mem_cons] at member
    rcases member with rfl | member
    · exact ⟨nested, fun _ => ⟨rooted, belongs, attributed⟩⟩
    · exact inside.each place member
  · rw [Forest.places, Forest.places, List.append_nil, Node.places, ← List.singleton_append,
      checkedElements_append, checkedElements_of_isChecked head children checked, inside.checked]
    rfl

/-- Text passes where it may stand. -/
theorem text {text : String} (held : MayHoldText schema ancestors text) :
    Passes resolver settings schema ancestors (textNodes (escape text)) [] := by
  by_cases none : text = ""
  · subst none
    exact nil
  have nodes : textNodes (escape text) = [.leaf (.text (encodeUtf8 (escape text)))] :=
    if_neg fun escaped => none (escape_eq_empty_iff.mp escaped)
  have data : characterData [.leaf (.text (encodeUtf8 (escape text)))] = text := by
    rw [← nodes, characterData_textNodes]
  rw [nodes]
  constructor
  · intro place member
    rw [Forest.places, Forest.places, List.append_nil, Node.places, List.mem_singleton] at member
    subst member
    apply (leafValid_of_ne_doctype _).mpr
    · rw [data]
      exact held
    · rintro content ⟨⟩
  · rfl

end Passes

theorem mayHoldText_of_blank {ancestors : List Element} {text : String}
    (blank : ∀ char ∈ text.toList, isBlank char) : MayHoldText schema ancestors text := by
  rintro ⟨char, member, solid⟩
  rw [blank char member] at solid
  cases solid

/-- The text in front of an element passes everywhere. -/
theorem passes_breakNodes (ancestors : List Element) (indent? : Option Nat) (depth : Nat) :
    Passes resolver settings schema ancestors (breakNodes indent? depth) [] := by
  rw [breakNodes_eq]
  apply Passes.text
  apply mayHoldText_of_blank
  intro char member
  cases indent? with
  | none => cases member
  | some width =>
    rw [breakText, String.toList_ofList, List.mem_cons] at member
    rcases member with rfl | space
    · rfl
    · rw [List.eq_of_mem_replicate space]
      rfl

section

variable {uri : Bytes} {indent? : Option Nat}

/-- The element of a heading that conforms belongs where it stands. -/
theorem HeadingConforms.belongs {depth : Nat} {head : Element} {around : List Element}
    {heading : Heading} (target : schema.targetNamespace?.map encodeUtf8 = some uri)
    (conforms : HeadingConforms settings schema depth head.name heading) :
    Belongs schema (head :: around) (heading.element (.bound uri)) := by
  constructor
  · rw [heading.name_element]
    exact conforms.declared
  · exact target.symm
  · rintro parent ⟨⟩
    rw [heading.name_element]
    exact conforms.allowed

theorem HeadingConforms.hasValidAttributes {depth : Nat} {parent : String} {heading : Heading}
    (conforms : HeadingConforms settings schema depth parent heading) :
    HasValidAttributes schema (heading.element (.bound uri)) := by
  constructor
  · intro declaration declared name required
    rw [heading.name_element] at declared
    rw [heading.value?_element]
    exact conforms.required declaration declared name required
  · intro found member _ _
    have attributes : (heading.element (.bound uri)).attributes =
        heading.attributes.map writtenAttribute := heading.writable.attributes_writtenElement
    rw [attributes] at member
    obtain ⟨entry, listed, rfl⟩ := List.mem_map.mp member
    have plain := heading.writable.keyed entry listed
    rw [writtenAttribute, shownName_eq_of_decodeUtf8_eq plain.decodeUtf8_bytesOf,
      textOf_eq_of_rawText_eq (rawText_encodeUtf8_escape entry.2)]
    exact conforms.accepted entry listed

mutual

/-- An outline that conforms passes. -/
theorem OutlineConforms.passes (target : schema.targetNamespace?.map encodeUtf8 = some uri) :
    {outline : Outline} → {head : Element} → {around : List Element} → (depth : Nat) →
    IsChecked schema (head :: around) →
    OutlineConforms settings schema (head :: around).length head.name outline →
    Passes resolver settings schema (head :: around)
      [outline.node (.bound uri) indent? depth]
      (outline.headings.map (Heading.element (.bound uri)))
  | .value heading text, head, around, _, checked, conforms => by
    apply Passes.element checked conforms.1.nested (nofun) (conforms.1.belongs target)
      conforms.1.hasValidAttributes
    apply Passes.text
    intro _
    refine ⟨_, _, rfl, fun _ => ?_⟩
    rw [takesText, heading.name_element]
    exact conforms.2
  | .branch heading children, head, around, depth, checked, conforms => by
    apply Passes.element checked conforms.1.nested (nofun) (conforms.1.belongs target)
      conforms.1.hasValidAttributes
    have inner : IsChecked schema (heading.element (.bound uri) :: head :: around) := by
      rw [isChecked_cons_iff, takesAnything, heading.name_element]
      exact ⟨conforms.2.1, checked⟩
    have passes := OutlinesConform.passes target (depth + 1) inner
      (by rw [heading.name_element]; exact conforms.2.2)
    have whole := passes.append (passes_breakNodes _ indent? depth)
    rwa [List.append_nil] at whole

/-- Outlines that conform pass. -/
theorem OutlinesConform.passes (target : schema.targetNamespace?.map encodeUtf8 = some uri) :
    {outlines : List Outline} → {head : Element} → {around : List Element} → (depth : Nat) →
    IsChecked schema (head :: around) →
    OutlinesConform settings schema (head :: around).length head.name outlines →
    Passes resolver settings schema (head :: around)
      (Outlines.nodes (.bound uri) indent? depth outlines)
      ((Outlines.headings outlines).map (Heading.element (.bound uri)))
  | [], _, _, _, _, _ => .nil
  | outline :: outlines, head, around, depth, checked, conforms => by
    rw [Outlines.nodes, Outlines.headings, List.map_append, ← List.singleton_append]
    have first := OutlineConforms.passes target depth checked conforms.1
    have others := OutlinesConform.passes target depth checked conforms.2
    exact (passes_breakNodes _ indent? depth).append (first.append others)

end

end

/-! ## Whole documents -/

/-- The values of an attribute at the headings with a name. -/
def headingValues (elementName attributeName : String) (headings : List Heading) : List String :=
  headings.filterMap fun heading =>
    if elementName = heading.name then heading.attributes.lookup attributeName else none

/-- The root of a document has no attribute but the declaration of its namespace. -/
theorem values_documentRoot {name : String} (plain : IsPlain name) (uri : String) :
    (documentRoot name uri).values = [] := by
  have declares := declaredName?_bytesOf (by decide : IsPlain "xmlns")
  rw [if_pos rfl] at declares
  rw [Element.values, documentRoot, (writable_root plain uri).attributes_writtenElement,
    List.map_singleton, List.filterMap_cons, Attribute.namedValue?, writtenAttribute, declares]
  rfl

theorem valuesAt_documentRoot_cons {name : String} (plain : IsPlain name) (uri : String)
    (elementName attributeName : String) (resolution : Resolution) (headings : List Heading) :
    valuesAt elementName attributeName
        (documentRoot name uri :: headings.map (Heading.element resolution)) =
      headingValues elementName attributeName headings := by
  have root : valueAt? elementName attributeName (documentRoot name uri) = none := by
    rw [valueAt?, Element.value?, values_documentRoot plain uri]
    exact ite_self _
  rw [valuesAt, List.filterMap_cons, root, List.filterMap_map]
  apply List.filterMap_congr
  intro heading _
  rw [Function.comp_apply, valueAt?, heading.name_element, heading.value?_element]

section

variable {uri : String} {children : List Outline}

/-- A declaration and the line break behind it may stand in front of every root. -/
theorem passes_declaration (declares : Bool) (indent? : Option Nat) :
    Passes resolver settings schema []
      (if declares then .leaf (.instruction declarationContent) :: breakNodes indent? 0 else [])
      [] := by
  cases declares with
  | false => exact .nil
  | true =>
    have instruction : Passes resolver settings schema []
        [.leaf (.instruction declarationContent)] [] := by
      constructor
      · intro place member
        rw [List.mem_singleton.mp member]
        apply (leafValid_of_ne_doctype _).mpr (mayHoldText_empty _)
        rintro content ⟨⟩
      · rfl
    exact instruction.append (passes_breakNodes [] indent? 0)

/-- The root has no attributes but the declaration of its namespace. -/
theorem hasValidAttributes_documentRoot {declaration : ElementDecl}
    (declared : schema.element? ElementName.graphml = some declaration)
    (free : declaration.required = []) (uri : String) :
    HasValidAttributes schema (documentRoot ElementName.graphml uri) := by
  have plain : IsPlain ElementName.graphml := by
    decide
  have named := name_documentRoot plain uri
  constructor
  · intro found member name required
    rw [named, declared] at member
    cases member
    rw [free] at required
    cases required
  · intro found member undeclaring
    have declares := declaredName?_bytesOf (by decide : IsPlain "xmlns")
    have key : (writtenAttribute ("xmlns", uri)).key = bytesOf "xmlns" := by
      rw [writtenAttribute]
    rw [if_pos rfl] at declares
    rw [documentRoot, (writable_root plain uri).attributes_writtenElement,
      List.map_singleton] at member
    rw [List.mem_singleton.mp member, key, declares] at undeclaring
    cases undeclaring

/-- All places in a document whose outlines conform are valid by themselves. -/
theorem passes_documentNodes {declaration : ElementDecl}
    (declared : schema.element? ElementName.graphml = some declaration)
    (strict : declaration.anyChildren = false) (free : declaration.required = [])
    (target : schema.targetNamespace?.map encodeUtf8 = some (encodeUtf8 (escape uri)))
    (nested : 0 < settings.maxNestingDepth)
    (conform : OutlinesConform settings schema 1 ElementName.graphml children)
    (declares : Bool) (indent? : Option Nat) :
    Passes resolver settings schema []
      (documentNodes declares indent? ElementName.graphml uri children)
      (documentRoot ElementName.graphml uri ::
        (Outlines.headings children).map
          (Heading.element (.bound (encodeUtf8 (escape uri))))) := by
  have plain : IsPlain ElementName.graphml := by
    decide
  have named := name_documentRoot plain uri
  apply (passes_declaration declares indent?).append
  apply Passes.element isChecked_nil nested (fun _ => named)
  · constructor
    · rw [named, declared]
      rfl
    · exact target.symm
    · rintro parent ⟨⟩
  · exact hasValidAttributes_documentRoot declared free uri
  · have checked : IsChecked schema [documentRoot ElementName.graphml uri] := by
      rw [isChecked_cons_iff, takesAnything, named, declared]
      exact ⟨strict, isChecked_nil⟩
    have conform' : OutlinesConform settings schema 1
        (documentRoot ElementName.graphml uri).name children := by
      rw [named]
      exact conform
    have inside : Passes resolver settings schema _ (Outlines.nodes _ indent? 1 children) _ :=
      OutlinesConform.passes target 1 checked conform'
    have whole := inside.append (passes_breakNodes _ indent? 0)
    rwa [List.append_nil] at whole

/-- A document whose outlines conform is valid if its keys are and its references are to
known values. -/
theorem validate_documentItems {declaration : ElementDecl}
    (declared : schema.element? ElementName.graphml = some declaration)
    (strict : declaration.anyChildren = false) (free : declaration.required = [])
    (target : schema.targetNamespace?.map encodeUtf8 = some (encodeUtf8 (escape uri)))
    (bound : uri ≠ "") (nested : 0 < settings.maxNestingDepth)
    (conform : OutlinesConform settings schema 1 ElementName.graphml children)
    (declares : Bool) (indent? : Option Nat) :
    validate resolver settings schema (rendered indent? .initial
        (documentItems declares ElementName.graphml uri children)) = .ok () ↔
      (∀ key ∈ schema.keys, (headingValues key.element key.attributeName
        (Outlines.headings children)).Nodup) ∧
      ∀ reference ∈ schema.references, ∀ key ∈ schema.keys.find? (·.name = reference.refer),
        ∀ value ∈ headingValues reference.element reference.attributeName
            (Outlines.headings children),
          value ∈ headingValues key.element key.attributeName (Outlines.headings children) := by
  have plain : IsPlain ElementName.graphml := by
    decide
  have passes : Passes resolver settings schema [] _ _ :=
    passes_documentNodes declared strict free target nested conform declares indent?
  have roots := filter_isRoot_places
    (documentNodes declares indent? ElementName.graphml uri children)
  rw [roots_documentNodes] at roots
  have single : ((Forest.places [] (documentNodes declares indent? ElementName.graphml uri
      children)).filter isRoot).length ≤ 1 := by
    rw [roots]
    exact Nat.le_refl 1
  have rooted : (Forest.places [] (documentNodes declares indent? ElementName.graphml uri
      children)).any isRoot = true := by
    rw [any_isRoot_iff, roots_documentNodes]
    exact List.cons_ne_nil _ _
  have describes := describes_documentItems plain bound declares indent? children
  rw [validate_eq_ok_iff_accepts, accepts_iff_admissible describes
    (wellFormed_documentNodes plain uri declares indent? children), identityValuesOf,
    referencesMadeBy, passes.checked, forall_referencesMade_iff]
  simp only [valuesAt_documentRoot_cons plain]
  constructor
  · rintro ⟨admissible, _, resolved⟩
    refine ⟨?_, resolved⟩
    have unique := admissible.unique
    rw [identityValuesOf, passes.checked, nodup_flatMap_identityValues_iff] at unique
    simpa only [valuesAt_documentRoot_cons plain] using unique
  · rintro ⟨unique, resolved⟩
    refine ⟨⟨passes.each, single, ?_⟩, rooted, resolved⟩
    rw [identityValuesOf, passes.checked, nodup_flatMap_identityValues_iff]
    simpa only [valuesAt_documentRoot_cons plain] using unique

end

end

end GraphMarkup.Validation
