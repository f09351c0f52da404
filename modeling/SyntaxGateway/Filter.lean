import SyntaxGateway.Failure
import SyntaxGateway.Log
import SyntaxGateway.Query.Index

/-!
# Filtering batches

A query runs over each tree of a batch on its own. The matches come in the order of the batch, those
of one tree in document order.
-/

namespace SyntaxGateway

/-- The matches of a query over trees, in order. -/
def Query.evaluateAll (q : Query) (trees : List Node) : List Node := trees.flatMap q.evaluate

/-- What to filter: a batch in base64 and a query. -/
structure FilterRequest where
  batch : String
  query : String

/-- The matches of a request. The batch is decoded before the query is read, so a fault of the batch
is reported first. -/
def FilterRequest.run (r : FilterRequest) : Logged (Outcome (List Node)) :=
  match Batch.decodeBase64 r.batch with
  | .error fault => pure (.error (.ofBatch fault))
  | .ok trees =>
    match Query.parse r.query with
    | .error fault => pure (.error (.ofQuery fault))
    | .ok q => do
      let found := q.evaluateAll trees
      Logged.log .debug <|
        s!"Filter {q.render} matched {found.length} nodes across {trees.length} trees"
      return .ok found

end SyntaxGateway
