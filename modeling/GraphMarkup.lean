import GraphMarkup.Sample.Roads
import GraphMarkup.Proofs.Markup.Forest
import GraphMarkup.Proofs.Text.Utf8
import GraphMarkup.Proofs.Document.Meaning
import GraphMarkup.Proofs.Document.ReadingTree
import GraphMarkup.Proofs.Document.ReadingGraph
import GraphMarkup.Proofs.Markup.Completeness
import GraphMarkup.Proofs.Validation.Validity
import GraphMarkup.Proofs.Text.Blank
import GraphMarkup.Proofs.Validation.Checking
import GraphMarkup.Proofs.Validation.Clauses
import GraphMarkup.Proofs.Markup.Escape
import GraphMarkup.Proofs.Markup.TagContent
import GraphMarkup.Proofs.Markup.WrittenTag
import GraphMarkup.Proofs.Markup.WrittenItems
import GraphMarkup.Proofs.Markup.Outline
import GraphMarkup.Proofs.Markup.Fragment
import GraphMarkup.Proofs.Document.Outlines
import GraphMarkup.Proofs.Schema.GraphSchema
import GraphMarkup.Proofs.Validation.Conformity
import GraphMarkup.Proofs.Text.Integer
import GraphMarkup.Proofs.Document.WrittenValidity
import GraphMarkup.Proofs.Decimal.Rounding
import GraphMarkup.Proofs.Decimal.Nearest
import GraphMarkup.Proofs.Decimal.Shortest
import GraphMarkup.Proofs.Decimal.Layout
import GraphMarkup.Proofs.Value.Scalar
import GraphMarkup.Proofs.Attributes.Compilation
import GraphMarkup.Proofs.Attributes.Entries
import GraphMarkup.Proofs.Attributes.Fields
import GraphMarkup.Proofs.Attributes.Elision
import GraphMarkup.Proofs.Graph.Plain
import GraphMarkup.Proofs.Graph.Adjacency
import GraphMarkup.Proofs.Graph.Refinement
import GraphMarkup.Proofs.Graph.Parallel
import GraphMarkup.Proofs.Document.WrittenMeaning
import GraphMarkup.Proofs.Document.Filling
import GraphMarkup.Proofs.Lists
import GraphMarkup.Proofs.Document.RoundTrip
import GraphMarkup.Proofs.Document.Annotations
import GraphMarkup.Proofs.Markup.Tree
import GraphMarkup.Proofs.Document.WrittenTree
import GraphMarkup.Proofs.Validation.Unclosed
import GraphMarkup.Proofs.Document.Unclosed
import GraphMarkup.Proofs.Value.Representable
import GraphMarkup.Proofs.Text.Words
import GraphMarkup.Proofs.Value.Canonical
import GraphMarkup.Proofs.Value.Equality
import GraphMarkup.Proofs.Document.PartialReading
import GraphMarkup.Proofs.Validation.Passed
import GraphMarkup.Proofs.Document.Absences
import GraphMarkup.Proofs.Document.ValidatedReading
import GraphMarkup.Proofs.Value.Interchange
import GraphMarkup.Proofs.Attributes.Faults
import GraphMarkup.Proofs.Document.Delivery
import GraphMarkup.Proofs.Document.ResolvedEnds
import GraphMarkup.Proofs.Schema.BreadthFirst
import GraphMarkup.Proofs.Schema.LoadingOrder
import GraphMarkup.Proofs.Graph.Numbering
import GraphMarkup.Proofs.Validation.ErrorClass
import GraphMarkup.Proofs.Validation.SystemIdentifier
import GraphMarkup.Proofs.Document.WrittenNames
import GraphMarkup.Proofs.Schema.CountSpace
import GraphMarkup.Proofs.Document.ElementContent
import GraphMarkup.Proofs.Schema.Separation
