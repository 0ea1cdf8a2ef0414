import GraphMarkup.Proofs.Document.Outlines
import GraphMarkup.Proofs.Result
import GraphMarkup.Sample.Roads

/-!
# Documents for sinks that fail

A document is sent in many pieces. However it is cut, a sink that fails has then taken the
first bytes of the document, as many as it can take, and the sending fails exactly if the
document is longer. Declarations that are refused are refused before anything is sent, those
of the graph first, then those of vertices, then those of edges.
-/

namespace GraphMarkup.Document

open GraphMarkup.Attributes
open GraphMarkup.Graph
open GraphMarkup.Text

/-! ## Pieces -/

namespace Sink

/-- A sink that fails has taken the first bytes of the pieces, wherever they are cut. -/
theorem send_limited (capacity : Nat) (error : Error) (pieces : List Bytes) :
    (limited capacity error).send pieces =
      ⟨pieces.flatten.take capacity,
        if pieces.flatten.length ≤ capacity then none else some error⟩ := by
  induction pieces generalizing capacity with
  | nil => simp [send]
  | cons piece pieces ih =>
    rw [send, offer, List.flatten_cons, List.take_append, List.length_append]
    by_cases short : capacity < piece.length
    · have more : ¬piece.length + pieces.flatten.length ≤ capacity := by
        omega
      rw [if_pos short, if_neg more, Nat.sub_eq_zero_of_le (Nat.le_of_lt short), List.take_zero,
        List.append_nil]
    · have room : piece.length ≤ capacity := Nat.not_lt.mp short
      have fits : pieces.flatten.length ≤ capacity - piece.length ↔
          piece.length + pieces.flatten.length ≤ capacity := by
        omega
      rw [if_neg short]
      dsimp only
      rw [ih, List.take_of_length_le room]
      simp only [fits]

end Sink

/-! ## Declarations -/

/-- The error of a result, if it is one. -/
def failureOf? {ε α : Type} : Except ε α → Option ε
  | .ok _ => none
  | .error cause => some cause

section

variable {V E A : Type}

/-- The error of the first declaration that is refused, in the order of graph, vertex and edge. -/
def GraphType.firstError? (type : GraphType V E A) : Option ConfigurationError :=
  (failureOf? type.graph.compile).or
    ((failureOf? type.vertex.compile).or (failureOf? type.edge.compile))

/-- A type of graphs is refused with the first error of its declarations. -/
theorem GraphType.failureOf?_compile (type : GraphType V E A) :
    failureOf? type.compile = type.firstError? := by
  rw [compile, firstError?]
  cases type.graph.compile with
  | error cause => rfl
  | ok graph =>
    cases type.vertex.compile with
    | error cause => rfl
    | ok vertex => cases type.edge.compile <;> rfl

variable [Endpoints E V] {type : GraphType V E A} (settings : WriterSettings)
  (identities : Identities V E) (listing : Listing V E A)

/-! ## Documents -/

/-- With whatever hooks, a sink that fails has taken the first bytes that are written. -/
theorem write_limited {codecs : Codecs V E A} (compiled : type.compile = .ok codecs)
    (hooks : Hooks V E A) (capacity : Nat) (error : Error) :
    let delivery := write type settings hooks identities listing .unlimited
    write type settings hooks identities listing (.limited capacity error) =
      ⟨delivery.bytes.take capacity,
        if delivery.bytes.length ≤ capacity then delivery.failure? else some error⟩ := by
  intro delivery
  have whole : delivery = ⟨((draft codecs settings hooks identities listing).pieces
      settings.indent?).flatten, (draft codecs settings hooks identities listing).failure?⟩ := by
    unfold delivery
    rw [write, compiled]
    dsimp only
    rw [Sink.send_unlimited]
    rfl
  rw [whole, write, compiled]
  dsimp only
  rw [Sink.send_limited, Delivery.endedBy]
  dsimp only
  split <;> rfl

/-- Without hooks, a document is delivered unless a declaration is refused, and then not a byte is
sent to any sink. A sink that takes a number of bytes and then fails has taken that many first bytes
of the document that a sink without limit is sent, and the sending fails exactly if there are
more. -/
theorem write_delivers (type : GraphType V E A) :
    match type.firstError? with
    | some cause => ∀ sink, write type settings (Hooks.none V E A) identities listing sink =
        ⟨[], some (.configuration cause)⟩
    | none => ∃ bytes,
        write type settings (Hooks.none V E A) identities listing .unlimited = ⟨bytes, none⟩ ∧
          ∀ capacity error,
            write type settings (Hooks.none V E A) identities listing (.limited capacity error) =
              ⟨bytes.take capacity, if bytes.length ≤ capacity then none else some error⟩ := by
  rw [← type.failureOf?_compile]
  cases compiled : type.compile with
  | error cause =>
    intro sink
    rw [write, compiled]
  | ok codecs =>
    -- without hooks, nothing but the sink can fail behind the declarations
    have sent : write type settings (Hooks.none V E A) identities listing .unlimited =
        ⟨(write type settings (Hooks.none V E A) identities listing .unlimited).bytes, none⟩ := by
      rw [write, compiled]
      dsimp only
      rw [draft_none, Sink.send_unlimited]
      rfl
    refine ⟨_, sent, fun capacity error => ?_⟩
    rw [write_limited settings identities listing compiled, congrArg Delivery.failure? sent]

/-- A sink that is full behind ten bytes has the first ten of them. -/
example :
    write Sample.roadGraphType .compact (Hooks.none ..) Sample.roadIdentities
        { directed := true, attributes := {}, vertices := [], edges := [] }
        (.limited 10 (.other "full")) =
      ⟨encodeUtf8 "<graphml x", some (.other "full")⟩ := by
  decide +kernel

end

end GraphMarkup.Document
