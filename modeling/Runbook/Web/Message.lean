import Runbook.Value.Document
import Runbook.Web.Address

/-! # Requests and responses

What comes in and goes out over the interface. The names of headers are the same in any case.
-/

namespace Runbook.Web

/-- A request. -/
structure Request where
  method : String
  /-- The path, decoded. -/
  path : String
  query : String := ""
  headers : List (String × String) := []
  body : String := ""

/-- What a response carries. -/
inductive Content where
  | nothing
  | document (v : Value)
  | text (s : String)
  | page (s : String)

/-- A response. -/
structure Response where
  status : Nat
  headers : List (String × String) := []
  content : Content := .nothing

/-- A name of a header in the case in which names are compared. -/
def headerName (name : String) : String := String.ofList (name.toList.map Char.toLower)

namespace Request

/-- A request to a target, which is a path and a query. -/
def ofTarget (method target : String) (headers : List (String × String)) (body : String) : Request :=
  let (path, query) := splitTarget target
  { method, path := percentDecode path, query, headers, body }

/-- The value of a header. -/
def header? (r : Request) (name : String) : Option String :=
  (r.headers.find? fun h => headerName h.1 == headerName name).map (·.2)

end Request

namespace Response

/-- A response with a document. -/
def document (status : Nat) (v : Value) : Response :=
  { status, headers := [("content-type", "application/json")], content := .document v }

/-- A response with plain text. -/
def text (status : Nat) (s : String) : Response :=
  { status, headers := [("content-type", "text/plain; charset=utf-8")], content := .text s }

/-- A response with a page. -/
def page (s : String) : Response :=
  { status := 200, headers := [("content-type", "text/html; charset=utf-8")], content := .page s }

/-- The response with another header. -/
def withHeader (r : Response) (name value : String) : Response :=
  { r with headers := r.headers ++ [(name, value)] }

/-- The response to a request by a method. One that asks for the headers only gets nothing else. -/
def forMethod (method : String) (r : Response) : Response :=
  if method == "HEAD" then { r with content := .nothing } else r

/-- The response as a record. -/
def toValue (r : Response) : Value :=
  Value.record [("status", .int r.status),
    ("headers", Value.record (r.headers.map fun h => (h.1, .text h.2))),
    ("content", match r.content with
      | .nothing => Value.record []
      | .document v => Value.record [("document", v)]
      | .text s => Value.record [("text", .text s)]
      | .page s => Value.record [("page", .text s)])]

end Response

end Runbook.Web
