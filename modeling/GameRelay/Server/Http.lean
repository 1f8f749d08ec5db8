import GameRelay.Json.Printer
import GameRelay.Server.Path

/-!
# Plain requests

Besides sockets the server answers plain requests: a health text at the root, and errors
everywhere else, except that a path which misses a page by slashes at its end is sent on. Pages of
every origin may read the answers, so an origin is repeated in the answer; before a request of
another kind a browser asks whether it may make it.
-/

set_option autoImplicit false
set_option relaxedAutoImplicit false

namespace GameRelay.Http

open Json

/-- What a server is asked. The names of headers are compared without regard to case. -/
structure Request where
  method : String
  path : String
  headers : List (String × String)

/-- What a server answers. The headers say what the body is and who may read it. -/
structure Response where
  status : Nat
  headers : List (String × String)
  body : String
  deriving DecidableEq

def title : String := "Netplay Relay"

def healthText : String := "Netplay relay server is running"

def Request.header? (r : Request) (name : String) : Option String :=
  (r.headers.find? fun entry => entry.1.toLower = name).map (·.2)

def respond (status : Nat) (type : String) (more : List (String × String)) (body : String) :
    Response :=
  ⟨status, more ++ [("content-length", toString body.utf8ByteSize), ("content-type", type)], body⟩

def plainText (status : Nat) (body : String) : Response :=
  respond status "text/plain; charset=utf-8" [] body

def failure (status : Nat) (more : List (String × String)) (reason : String) : Response :=
  respond status "application/json" more (Value.object [("detail", .string reason)]).text

def redirection : Response := ⟨307, [("content-length", "0")], ""⟩

/-- The places of pages: the health text, and the descriptions of the service, which are made
elsewhere. -/
def pages : List String := ["/", "/openapi.json", "/docs", "/docs/oauth2-redirect", "/redoc"]

/-- Whether a path misses a page by slashes at its end. -/
def missesPage (path : String) : Bool :=
  pages.any fun page => Path.leadsTo page (Path.toggleSlash path)

/-- The answer without regard to origins. -/
def route (r : Request) : Response :=
  if Path.leadsTo "/" r.path then
    if r.method = "GET" then plainText 200 healthText
    else failure 405 [("allow", "GET")] "Method Not Allowed"
  else if missesPage r.path then redirection
  else failure 404 [] "Not Found"

def allowOrigin (origin : String) : List (String × String) :=
  [("access-control-allow-credentials", "true"), ("access-control-allow-origin", origin)]

def allowedMethods : List String :=
  ["DELETE", "GET", "HEAD", "OPTIONS", "PATCH", "POST", "PUT", "QUERY"]

/-- What a browser may ask for in vain. -/
inductive Refusal
  | method
  | privateNetwork
  deriving DecidableEq

def Refusal.name : Refusal → String
  | .method => "method"
  | .privateNetwork => "private-network"

/-- What is refused to a browser that asks for a method and perhaps for a private network, which
is never opened. -/
def refusals (method : String) (toPrivateNetwork : Bool) : List Refusal :=
  (if allowedMethods.contains method then [] else [.method]) ++
    (if toPrivateNetwork then [.privateNetwork] else [])

def preflight (method : String) (toPrivateNetwork : Bool) : Response :=
  match refusals method toPrivateNetwork with
  | [] => plainText 200 "OK"
  | refused => plainText 400 ("Disallowed CORS " ++ ", ".intercalate (refused.map Refusal.name))

def answer (r : Request) : Response :=
  match r.header? "origin" with
  | none => route r
  | some origin =>
    let response :=
      match r.method, r.header? "access-control-request-method" with
      | "OPTIONS", some method =>
        preflight method (r.header? "access-control-request-private-network").isSome
      | _, _ => route r
    { response with headers := allowOrigin origin ++ response.headers }

end GameRelay.Http
