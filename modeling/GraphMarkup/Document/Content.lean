import GraphMarkup.Document.Vocabulary
import GraphMarkup.Error
import GraphMarkup.Markup.Namespace

/-!
# Content of elements

The reader of documents looks at tags, at character data and at the end of
elements. It leaves elements out as a whole, collects the character data of an
element without that of the elements in it, and reads the data of an element
onto an instance. Each of these consumes the end tag of the element, so what
is left of the trace is what stands behind it.
-/

namespace GraphMarkup.Document

open GraphMarkup.Markup
open GraphMarkup.Attributes
open GraphMarkup.Text

/-- What stands in an element. -/
inductive Content where
  | opening (tag : Tag) (namespace? : Option Bytes) (isEmpty : Bool)
  /-- The element ends. -/
  | closing
  | text (text : String)
  | other
deriving DecidableEq, Repr

/-- The namespace of a resolved name, if its qualifier is declared. -/
def declaredNamespace? : Resolution → Except Error (Option Bytes)
  | .bound uri => .ok (some uri)
  | .unbound => .ok none
  | .unknown qualifier => .error (.undeclaredQualifier qualifier)

/-- What an event is to an element. -/
def contentOf (resolved : Resolved) : Except Error Content := do
  let namespace? ← declaredNamespace? resolved.resolution
  match resolved.event with
  | .opening tag => pure (.opening tag namespace? false)
  | .empty tag => pure (.opening tag namespace? true)
  | .closing _ => pure .closing
  | .text raw => .text <$> (rawText raw).mapError .markup
  | .cdata content => .text <$> (decodeUtf8 content).mapError .encoding
  | .comment _ => pure .other
  | .instruction _ => pure .other
  | .doctype _ => pure .other

/-- Leave out the rest of an element, inside which `depth` other elements are
open. -/
def skip (depth : Nat) : Trace Resolved → Except Error (Trace Resolved)
  | .ended => .error (.unfinished .skippedElement)
  | .failed error _ _ => .error (.markup error)
  | .item resolved _ rest =>
      match resolved.event with
      | .opening _ => skip (depth + 1) rest
      | .closing _ =>
          match depth with
          | 0 => .ok rest
          | depth + 1 => skip depth rest
      | _ => skip depth rest

theorem skip_length_lt {depth : Nat} {trace rest : Trace Resolved}
    (skipped : skip depth trace = .ok rest) : rest.length < trace.length := by
  fun_induction skip depth trace with
  | case1 => cases skipped
  | case2 => cases skipped
  | case3 _ _ _ _ _ _ ih => have := ih skipped; simp only [Trace.length]; omega
  | case4 => cases skipped; simp [Trace.length]
  | case5 _ _ _ _ _ _ ih => have := ih skipped; simp only [Trace.length]; omega
  | case6 _ _ _ _ _ _ ih => have := ih skipped; simp only [Trace.length]; omega

/-- Collect the character data of an element behind what has been collected. -/
def collectText (collected : String) (trace : Trace Resolved) :
    Except Error (String × Trace Resolved) :=
  match trace with
  | .ended => .error (.unfinished .dataElement)
  | .failed error _ _ => .error (.markup error)
  | .item resolved _ rest =>
      match contentOf resolved with
      | .error error => .error error
      | .ok (.opening _ _ false) =>
          match _skipped : skip 0 rest with
          | .error error => .error error
          | .ok rest' => collectText collected rest'
      | .ok (.opening _ _ true) => collectText collected rest
      | .ok .closing => .ok (collected, rest)
      | .ok (.text text) => collectText (collected ++ text) rest
      | .ok .other => collectText collected rest
termination_by trace.length
decreasing_by
  · have := skip_length_lt _skipped
    simp only [Trace.length]
    omega
  all_goals simp [Trace.length]

theorem collectText_length_lt {collected text : String} {trace rest : Trace Resolved}
    (read : collectText collected trace = .ok (text, rest)) : rest.length < trace.length := by
  fun_induction collectText collected trace with
  | case1 => cases read
  | case2 => cases read
  | case3 => cases read
  | case4 => cases read
  | case5 _ _ _ _ _ _ _ _ skipped ih =>
    have := ih read
    have := skip_length_lt skipped
    simp only [Trace.length]
    omega
  | case6 _ _ _ _ _ _ _ ih => have := ih read; simp only [Trace.length]; omega
  | case7 => cases read; simp [Trace.length]
  | case8 _ _ _ _ _ _ ih => have := ih read; simp only [Trace.length]; omega
  | case9 _ _ _ _ _ ih => have := ih read; simp only [Trace.length]; omega

/-- The character data of an element. -/
def elementText (isEmpty : Bool) (trace : Trace Resolved) :
    Except Error (String × Trace Resolved) :=
  if isEmpty then .ok ("", trace) else collectText "" trace

theorem elementText_length_le {isEmpty : Bool} {text : String} {trace rest : Trace Resolved}
    (read : elementText isEmpty trace = .ok (text, rest)) : rest.length ≤ trace.length := by
  unfold elementText at read
  split at read
  · cases read
    exact Nat.le_refl _
  · exact Nat.le_of_lt (collectText_length_lt read)

/-- The text of an attribute that an element must have. -/
def requiredText (tag : Tag) (element attributeName : String) : Except Error String :=
  match tag.attribute? (bytesOf attributeName) with
  | .error error => .error (.attributes error)
  | .ok none => .error (.missingAttribute element attributeName)
  | .ok (some raw) => (rawText raw).mapError .markup

/-- Whether a tag has a local name. -/
def hasName (tag : Tag) (name : String) : Bool :=
  localName tag.name == bytesOf name

/-- Set an attribute from a data element: its key names the attribute and its
character data is the value. -/
def readDataElement {α : Type} (codec : Codec α) (owner : α) (tag : Tag) (isEmpty : Bool)
    (trace : Trace Resolved) : Except Error (α × Trace Resolved) := do
  let key ← requiredText tag ElementName.data AttributeName.key
  let (text, rest) ← elementText isEmpty trace
  let owner ← (codec.read key text owner).mapError .data
  pure (owner, rest)

theorem readDataElement_length_le {α : Type} {codec : Codec α} {owner owner' : α} {tag : Tag}
    {isEmpty : Bool} {trace rest : Trace Resolved}
    (read : readDataElement codec owner tag isEmpty trace = .ok (owner', rest)) :
    rest.length ≤ trace.length := by
  simp only [readDataElement, bind, Except.bind] at read
  split at read
  · cases read
  · split at read
    · cases read
    · rename_i found
      split at read
      · cases read
      · cases read
        exact elementText_length_le found

/-- Read the data in an element of the given name onto an instance. Elements of
other namespaces and with other names are left out. -/
def readData {α : Type} (namespace? : Option Bytes) (codec : Codec α) (element : String)
    (owner : α) (trace : Trace Resolved) : Except Error (α × Trace Resolved) :=
  match trace with
  | .ended => .error (.unfinished (.element element))
  | .failed error _ _ => .error (.markup error)
  | .item resolved _ rest =>
      match contentOf resolved with
      | .error error => .error error
      | .ok (.opening tag found? isEmpty) =>
          if found? = namespace? ∧ hasName tag ElementName.data then
            match _read : readDataElement codec owner tag isEmpty rest with
            | .error error => .error error
            | .ok (owner, rest') => readData namespace? codec element owner rest'
          else if isEmpty then readData namespace? codec element owner rest
          else
            match _skipped : skip 0 rest with
            | .error error => .error error
            | .ok rest' => readData namespace? codec element owner rest'
      | .ok .closing => .ok (owner, rest)
      | .ok (.text _) => readData namespace? codec element owner rest
      | .ok .other => readData namespace? codec element owner rest
termination_by trace.length
decreasing_by
  · have := readDataElement_length_le _read
    simp only [Trace.length]
    omega
  · simp [Trace.length]
  · have := skip_length_lt _skipped
    simp only [Trace.length]
    omega
  all_goals simp [Trace.length]

theorem readData_length_lt {α : Type} {namespace? : Option Bytes} {codec : Codec α}
    {element : String} {owner owner' : α} {trace rest : Trace Resolved}
    (read : readData namespace? codec element owner trace = .ok (owner', rest)) :
    rest.length < trace.length := by
  fun_induction readData namespace? codec element owner trace with
  | case1 => cases read
  | case2 => cases read
  | case3 => cases read
  | case4 => cases read
  | case5 =>
    rename_i found ih
    have := ih read
    have := readDataElement_length_le found
    simp only [Trace.length]
    omega
  | case6 => rename_i ih; have := ih read; simp only [Trace.length]; omega
  | case7 => cases read
  | case8 =>
    rename_i skipped ih
    have := ih read
    have := skip_length_lt skipped
    simp only [Trace.length]
    omega
  | case9 => cases read; simp [Trace.length]
  | case10 => rename_i ih; have := ih read; simp only [Trace.length]; omega
  | case11 => rename_i ih; have := ih read; simp only [Trace.length]; omega

end GraphMarkup.Document
