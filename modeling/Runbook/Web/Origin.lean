import Runbook.Settings
import Runbook.Web.Message

/-! # Origins

Browsers may ask from some origins only. Before a request of another kind they ask whether they may;
that question is answered here and leads no further.
-/

namespace Runbook.Web

/-- The methods that browsers may use. -/
def allowedMethods : List String := ["GET", "POST", "DELETE", "OPTIONS"]

/-- The headers that browsers may send. -/
def allowedHeaders : List String :=
  ["accept", "accept-language", "content-language", "content-type", "authorization", "x-request-id"]

/-- Browsers may ask from an origin. -/
def isAllowedOrigin (s : Settings) (origin : String) : Bool :=
  s.origins.contains "*" || s.origins.contains origin

/-- The origin and method of a browser's question whether it may ask. -/
def question? (r : Request) : Option (String × String) :=
  match r.header? "origin", r.header? "access-control-request-method" with
  | some origin, some method => if r.method == "OPTIONS" then some (origin, method) else none
  | _, _ => none

/-- All headers that a browser wants to send may be sent. -/
def headersAllowed (r : Request) : Bool :=
  match r.header? "access-control-request-headers" with
  | none => true
  | some wanted =>
    (Text.split ',' wanted).all fun name => allowedHeaders.contains (Text.trim (headerName name))

/-- The response with the origin that it is for, if browsers may ask from there. -/
def markOrigin (s : Settings) (origin : Option String) (response : Response) : Response :=
  match origin with
  | some o =>
    if isAllowedOrigin s o then response.withHeader "access-control-allow-origin" o else response
  | none => response

/-- The answer to a browser's question whether it may ask. -/
def permission (s : Settings) (r : Request) (origin method : String) : Response :=
  let failures :=
    (if isAllowedOrigin s origin then [] else ["origin"]) ++
      (if allowedMethods.contains method then [] else ["method"]) ++
      if headersAllowed r then [] else ["headers"]
  let response :=
    if failures.isEmpty then Response.text 200 "OK"
    else Response.text 400 ("Disallowed CORS " ++ ", ".intercalate failures)
  markOrigin s (some origin)
    (response.withHeader "access-control-allow-methods" (", ".intercalate allowedMethods))

end Runbook.Web
