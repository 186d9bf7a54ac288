import ClassAtlas.Index.Bucket
import ClassAtlas.Index.Record

/-!
The index: documents by path, and for each field the paths under each term, all of them
as records. Storing a document first takes back the postings of the one it replaces. Either
all of an update takes effect or none of it.

A document goes by its path as it is, while a posting list keeps the path as mended. So a path
that does not spell characters is not found in the lists it was added to.

Posting lists are searched by halving, which finds a path's place when the list is in
order; on a list that is not, an update still keeps every other path.
-/
namespace ClassAtlas.Index

structure Store where
  docs : Bucket RawText
  defs : Bucket RawText
  refs : Bucket RawText
  full : Bucket RawText
deriving Repr, DecidableEq

/-- Why an operation on a store fails. -/
inductive StoreError where
  | closed
  | notFound (path : RawText)
  | document (path : RawText) (fault : RecordFault)
  | postings (term : RawText) (fault : RecordFault)
  | emptyKey
  | longKey
  | unknownField (name : String)
  | putting (path : RawText) (error : StoreError)
  | deleting (path : RawText) (error : StoreError)
deriving Repr, DecidableEq

def StoreError.message : StoreError → String
  | closed => "database not open"
  | notFound path => path.shown ++ ": document not found"
  | document path fault => "unmarshal " ++ path.shown ++ ": " ++ fault.message
  | postings term fault => "postings for " ++ Text.Quoted.encodeBytes term.bytes ++ ": " ++ fault.message
  | emptyKey => "key required"
  | longKey => "key too large"
  | unknownField name => "unknown field " ++ Text.Quoted.encode name
  | putting path error => "put " ++ path.shown ++ ": " ++ error.message
  | deleting path error => "delete " ++ path.shown ++ ": " ++ error.message

namespace Store

def empty : Store := ⟨.empty, .empty, .empty, .empty⟩

def bucket (s : Store) : Field → Bucket RawText
  | .defs => s.defs
  | .refs => s.refs
  | .full => s.full

def setBucket (s : Store) (f : Field) (b : Bucket RawText) : Store :=
  match f with
  | .defs => { s with defs := b }
  | .refs => { s with refs := b }
  | .full => { s with full := b }

/-! ### Posting lists -/

/-- The least place in `lo`, …, `hi` that halving finds for a path. -/
def placeBetween (paths : List RawText) (path : RawText) (lo hi : Nat) : Nat :=
  if lo < hi then
    if paths.getD ((lo + hi) / 2) .empty < path then placeBetween paths path ((lo + hi) / 2 + 1) hi
    else placeBetween paths path lo ((lo + hi) / 2)
  else lo
termination_by hi - lo

def place (paths : List RawText) (path : RawText) : Nat := placeBetween paths path 0 paths.length

def insertPath (path : RawText) (paths : List RawText) : List RawText :=
  let i := place paths path
  if paths[i]? = some path then paths else paths.take i ++ path :: paths.drop i

def erasePath (path : RawText) (paths : List RawText) : List RawText :=
  let i := place paths path
  if paths[i]? = some path then paths.eraseIdx i else paths

/-- The paths under a term. -/
def postings (b : Bucket RawText) (term : RawText) : Except StoreError Postings :=
  match b.get? term with
  | none => .ok none
  | some record => (Postings.ofRecord record).mapError (.postings term)

def putPostings (b : Bucket RawText) (term : RawText) (paths : List RawText) : Bucket RawText :=
  b.insert term (Postings.toRecord (some paths))

def addPosting (path : RawText) (b : Bucket RawText) (term : RawText) :
    Except StoreError (Bucket RawText) := do
  let paths := (← postings b term).getD []
  if paths[place paths path]? = some path then return b
  else return putPostings b term (insertPath path paths)

/-- Takes a path from under a term. A term without paths is not kept. -/
def removePosting (path : RawText) (b : Bucket RawText) (term : RawText) :
    Except StoreError (Bucket RawText) := do
  let paths := (← postings b term).getD []
  if paths[place paths path]? = some path then
    match erasePath path paths with
    | [] => return b.erase term
    | rest => return putPostings b term rest
  else return b

/-- Runs an update of a bucket over every term of a document. -/
def updateTerms (update : Bucket RawText → RawText → Except StoreError (Bucket RawText))
    (d : Document) (s : Store) : Except StoreError Store :=
  Field.all.foldlM (fun s f => s.setBucket f <$> (d.termKeys f).foldlM update (s.bucket f)) s

/-! ### Documents -/

def get (s : Store) (path : RawText) : Except StoreError Document :=
  match s.docs.get? path with
  | none => .error (.notFound path)
  | some record => (Document.ofRecord record).mapError (.document path)

/-- Removes the document under a path and its postings, if there is one. -/
def remove (s : Store) (path : RawText) : Except StoreError Store :=
  match s.docs.get? path with
  | none => .ok s
  | some record => do
    let old ← (Document.ofRecord record).mapError (.document path)
    let s ← updateTerms (removePosting path) old s
    return { s with docs := s.docs.erase path }

/-- The greatest length of a key, in bytes. -/
def maxKeySize : Nat := 32768

/-- Adds a document under its path, where none is. -/
def add (s : Store) (d : Document) : Except StoreError Store :=
  if d.path = .empty then .error .emptyKey
  else if maxKeySize < d.path.size then .error .longKey
  else updateTerms (addPosting d.path) d { s with docs := s.docs.insert d.path d.toRecord }

/-- Stores a document in place of the one under its path. -/
def put (s : Store) (d : Document) : Except StoreError Store :=
  (s.remove d.path >>= (·.add d)).mapError (.putting d.path)

def delete (s : Store) (path : RawText) : Except StoreError Store :=
  (s.remove path).mapError (.deleting path)

/-- The paths whose documents have a term in a field. -/
def search (s : Store) (f : Field) (term : RawText) : Except StoreError Postings :=
  postings (s.bucket f) term

/-- All paths, in order. -/
def paths (s : Store) : List RawText := s.docs.keys

/-! ### Records put there by other means -/

inductive BucketName where
  | docs
  | field (field : Field)
deriving Repr, DecidableEq

def BucketName.ofName? (s : String) : Option BucketName :=
  if s = "docs" then some .docs else (Field.ofName? s).map .field

def insertRecord (s : Store) (bucket : BucketName) (key record : RawText) : Store :=
  match bucket with
  | .docs => { s with docs := s.docs.insert key record }
  | .field f => s.setBucket f ((s.bucket f).insert key record)

end Store

/-! ### A store that can be closed -/

/-- A store behind a handle. Every operation on a closed one fails. -/
structure Database where
  store : Store
  isOpen : Bool
deriving Repr, DecidableEq

namespace Database

def empty : Database := ⟨.empty, true⟩

def close (db : Database) : Database := { db with isOpen := false }

def reopen (db : Database) : Database := { db with isOpen := true }

/-- Runs on the store of an open database. -/
def view (db : Database) (f : Store → Except StoreError α) : Except StoreError α :=
  if db.isOpen then f db.store else .error .closed

/-- Replaces the store of an open database by the outcome of an update, if it succeeds. -/
def update (db : Database) (f : Store → Except StoreError Store) : Except StoreError Database :=
  db.view fun s => (fun s => { db with store := s }) <$> f s

def get (db : Database) (path : RawText) : Except StoreError Document := db.view (·.get path)

def paths (db : Database) : Except StoreError (List RawText) := db.view fun s => .ok s.paths

def search (db : Database) (f : Field) (term : RawText) : Except StoreError Postings :=
  db.view (·.search f term)

/-- Search in a field given by name. An unknown name is reported first. -/
def searchNamed (db : Database) (field : String) (term : RawText) : Except StoreError Postings :=
  match Field.ofName? field with
  | some f => db.search f term
  | none => .error (.unknownField field)

def put (db : Database) (d : Document) : Except StoreError Database :=
  if db.isOpen then db.update (·.put d) else .error (.putting d.path .closed)

def delete (db : Database) (path : RawText) : Except StoreError Database :=
  if db.isOpen then db.update (·.delete path) else .error (.deleting path .closed)

end Database
end ClassAtlas.Index
