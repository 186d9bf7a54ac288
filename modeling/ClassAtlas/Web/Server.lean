import ClassAtlas.Index.Store
import ClassAtlas.Text.Markup
import ClassAtlas.Web.Page
import ClassAtlas.Web.Query
import ClassAtlas.Web.Route

/-!
The index on the web. The search page stands at the path of the link prefix, documents
below its sibling `xref/`, and the list of all documents at the root. Paths are made
normal by redirection before they are looked up.
-/
namespace ClassAtlas.Web

structure Request where
  method : String
  target : Url
  accept : String
deriving Repr, DecidableEq

/-- An answer; a header that is not set is empty. -/
structure Response where
  status : Nat
  contentType : String
  location : String
  allow : String
  body : String
deriving Repr, DecidableEq

namespace Response

def plain (status : Nat) (text : String) : Response :=
  ⟨status, "text/plain; charset=utf-8", "", "", text ++ "\n"⟩

def html (body : String) : Response := ⟨200, "text/html; charset=utf-8", "", "", body⟩

def json (v : Json.Value) : Response := ⟨200, "application/json", "", "", v.toLine ++ "\n"⟩

def notFound : Response := plain 404 "404 page not found"

def methodNotAllowed : Response := { plain 405 "Method Not Allowed" with allow := "GET, HEAD" }

end Response

/-! ### Redirections -/

/-- Why a client is sent elsewhere. -/
inductive Redirection where
  | seeOther
  | temporary
deriving Repr, DecidableEq

def Redirection.status : Redirection → Nat
  | seeOther => 303
  | temporary => 307

def Redirection.text : Redirection → String
  | seeOther => "See Other"
  | temporary => "Temporary Redirect"

/-- The place that a rooted address leads to: its path made normal, if it can be read. -/
def destination (address : Bytes) : Bytes :=
  match Url.parse address with
  | .ok u =>
    if u.scheme = [] ∧ u.host = [] then
      let path := address.takeWhile (!isChar '?' ·)
      cleanPath path ++ address.drop path.length
    else address
  | .error _ => address

/-- A header is ASCII. -/
def headerText (bytes : Bytes) : String :=
  Text.Utf8.decodeLossy (bytes.flatMap fun b => if b < 128 then [b] else escapeByte Bytes.hexDigit b)

def redirect (kind : Redirection) (r : Request) (address : Bytes) : Response :=
  let place := destination address
  let isRead := r.method = "GET" ∨ r.method = "HEAD"
  { status := kind.status
    contentType := if isRead then "text/html; charset=utf-8" else ""
    location := headerText place
    allow := ""
    body := if r.method = "GET" then
        "<a href=\"" ++ Text.Markup.escape (Text.Utf8.decodeLossy place) ++ "\">" ++ kind.text ++ "</a>.\n\n"
      else "" }

/-! ### The server -/

/-- What a path may lead to. -/
inductive Handler where
  | search | document | listing
deriving Repr, DecidableEq

structure Server where
  base : Bytes
  routes : Routes Handler

/-- Why there is no server for a link prefix. -/
inductive ServerError where
  | address (text : String) (error : UrlError)
  | routes
deriving Repr, DecidableEq

def ServerError.message : ServerError → String
  | address text error => "url prefix " ++ Text.Quoted.encode text ++ ": " ++ error.message
  | routes => ""

namespace Server

/-- The path of the search page. -/
def searchPath (u : Url) : Bytes :=
  let path := if startsWith u.path (bytesOf "/") then u.path else bytesOf "/" ++ u.path
  if path = bytesOf "/" then bytesOf "/s" else path

/-- The path below which documents stand: beside the search page. -/
def documentBase (search : Bytes) : Bytes :=
  ((cutLast? isSlash search).map (·.1)).getD [] ++ bytesOf "/xref/"

def create (stem : String) : Except ServerError Server := do
  let text := bytesOf stem
  let text := if text.getLast?.any (isChar '?') then text.dropLast else text
  let u ← (Url.parse text).mapError (.address stem)
  let path := searchPath u
  let base := documentBase path
  let routes := do
    let routes ← Routes.add? [] path Handler.search
    let routes ← Routes.add? routes (base ++ bytesOf "\x7bpath...\x7d") .document
    Routes.add? routes (bytesOf "/\x7b$\x7d") .listing
  match routes with
  | some routes => return ⟨base, routes⟩
  | none => throw .routes

/-! ### Answers -/

def wantsJson (r : Request) : Bool := r.accept == "application/json"

def storeFailure (e : Index.StoreError) : Response := .plain 500 e.message

/-- A list of paths. -/
def listPaths (s : Server) (r : Request) (title : String) (paths : List RawText) : Response :=
  if wantsJson r then .json (.strings (paths.map RawText.shown)) else .html (Page.results s.base title paths)

/-- The documents with a term in a field. -/
def searchFor (s : Server) (db : Index.Database) (r : Request) (f : Index.Field) (term : Bytes)
    (title : String) : Response :=
  match db.search f ⟨term⟩ with
  | .ok paths => s.listPaths r title (paths.getD [])
  | .error e => storeFailure e

/-- Whether there is a readable document under a path. -/
def hasDocument (db : Index.Database) (path : Bytes) : Bool := (db.get ⟨path⟩).isOk

/-- The first field that a query has a term for. -/
def fieldOf? (q : Query) : Option (Index.Field × Bytes) :=
  Index.Field.all.findSome? fun f =>
    let term := q.get f.name
    if term.isEmpty then none else some (f, term)

def answerSearch (s : Server) (db : Index.Database) (r : Request) : Response :=
  let q := Query.parse r.target.query
  let path := q.get "path"
  if !path.isEmpty then
    if hasDocument db path then redirect .seeOther r (s.base ++ path)
    else s.searchFor db r .defs path ("Classes compiled from " ++ Text.Utf8.decodeLossy path)
  else match fieldOf? q with
    | some (f, term) => s.searchFor db r f term (f.name ++ ": " ++ Text.Utf8.decodeLossy term)
    | none => .plain 400 "expected one of path, defs, refs or full"

def answerDocument (db : Index.Database) (r : Request) (path : Bytes) : Response :=
  match db.get ⟨path⟩ with
  | .ok d => if wantsJson r then .json d.toJson else .html (Page.document d)
  | .error (.notFound _) => .plain 404 "class not found"
  | .error e => storeFailure e

def answerListing (s : Server) (db : Index.Database) (r : Request) : Response :=
  match db.paths with
  | .ok paths => s.listPaths r "Indexed classes" paths
  | .error e => storeFailure e

def answer (s : Server) (db : Index.Database) (r : Request) (m : Match Handler) : Response :=
  match m.target with
  | .search => s.answerSearch db r
  | .document => answerDocument db r m.rest
  | .listing => s.answerListing db r

/-! ### Routing -/

/-- An address of a path and a query. -/
def addressOf (path query : Bytes) : Bytes :=
  escapePath path ++ if query.isEmpty then [] else bytesOf "?" ++ query

/-- The answer to a request that no handler takes: the method may be wrong, or the path. -/
def refuse (s : Server) (path : Bytes) : Response :=
  let slashed := if path.getLast?.any isSlash then path else path ++ bytesOf "/"
  if (s.routes.find? path).isSome || (s.routes.find? slashed).isSome then .methodNotAllowed else .notFound

/-- Answers a request. -/
def respond (s : Server) (db : Index.Database) (r : Request) : Response :=
  let written := r.target.escapedPath
  if r.target.writtenPath = bytesOf "*" then ⟨400, "", "", "", ""⟩
  else if r.method = "CONNECT" then s.refuse written
  else
    let path := cleanPath written
    let reads := r.method = "GET" ∨ r.method = "HEAD"
    let found := if reads then s.routes.find? path else none
    let slashed := path ++ bytesOf "/"
    if reads ∧ !path.getLast?.any isSlash ∧ (s.routes.findExact? path).isNone ∧
        (s.routes.findExact? slashed).isSome then
      redirect .temporary r (addressOf (cleanPath r.target.path ++ bytesOf "/") r.target.query)
    else if path ≠ written then redirect .temporary r (addressOf path r.target.query)
    else match found with
      | some m => s.answer db r m
      | none => s.refuse path

end Server
end ClassAtlas.Web
