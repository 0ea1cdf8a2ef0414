import GraphMarkup.Error

/-!
# Sinks

A document leaves the program piece by piece, and the sink that takes the
pieces may fail. It then has taken a beginning of the piece at which it failed,
and nothing is sent behind that piece.
-/

namespace GraphMarkup.Document

/-- A destination of bytes. -/
inductive Sink where
  /-- A sink that takes everything. -/
  | unlimited
  /-- A sink that takes `capacity` bytes and then fails. -/
  | limited (capacity : Nat) (error : Error)
deriving DecidableEq, Repr

/-- What arrived at a sink, and the failure that ended the sending, if any. -/
structure Delivery where
  bytes : Bytes
  failure? : Option Error
deriving DecidableEq, Repr

namespace Delivery

/-- All bytes that were sent, or the failure. -/
def result (delivery : Delivery) : Except Error Bytes :=
  match delivery.failure? with
  | some error => .error error
  | none => .ok delivery.bytes

/-- A delivery behind which the sender fails, if it does. -/
def endedBy (failure? : Option Error) (delivery : Delivery) : Delivery :=
  { delivery with failure? := delivery.failure?.or failure? }

end Delivery

namespace Sink

/-- Send one piece. What comes back is the sink behind it, or the part that was
taken and the failure. -/
def offer (piece : Bytes) : Sink → Except (Bytes × Error) Sink
  | unlimited => .ok unlimited
  | limited capacity error =>
      if capacity < piece.length then .error (piece.take capacity, error)
      else .ok (limited (capacity - piece.length) error)

/-- Send pieces one after the other, up to the first failure. -/
def send (sink : Sink) : List Bytes → Delivery
  | [] => ⟨[], none⟩
  | piece :: pieces =>
      match sink.offer piece with
      | .error (taken, error) => ⟨taken, some error⟩
      | .ok sink =>
          let rest := sink.send pieces
          { rest with bytes := piece ++ rest.bytes }

@[simp]
theorem send_unlimited (pieces : List Bytes) :
    unlimited.send pieces = ⟨pieces.flatten, none⟩ := by
  induction pieces with
  | nil => rfl
  | cons piece pieces ih => simp [send, offer, ih]

end Sink

end GraphMarkup.Document
