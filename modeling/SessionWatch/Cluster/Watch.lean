import SessionWatch.Cluster.Listening

/-!
Following one kind of object through a server. All objects are listed page by page; from the
version of the list on, changes are watched. A watch that ends is taken up again where it
stopped, and one that has lost its place starts over with a list.
-/

namespace SessionWatch.Cluster

/-- A response of the server: its status, and the documents of its body. -/
structure Response where
  status : Nat
  documents : List Json

inductive Question where
  | list (page : Option String)
  | watch (version : String)
  deriving DecidableEq

inductive Phase where
  /-- At a page of the list, behind the objects of the pages before. -/
  | listing (page : Option String) (listed : List Object)
  | watching (version : String)

inductive Notice where
  | change (object : Object) (c : Change)
  | bookmark (version : String)
  | refusal (code : Nat)

namespace Watch

def listFailed : String := "failed to perform initial object list"

def noVersion : String :=
  "no metadata.resourceVersion in watch result (does resource support watch?)"

def refused : String := "error returned by apiserver during watch"

def streamFailed : String := "watch stream failed"

/-- The code by which a server says that a version is too old to go on from. -/
def gone : Nat := 410

def filled (s : Option String) : Option String := s.filter (· ≠ "")

def pageMetadata : Shape := .record
  (Shape.each .text ["continue", "resourceVersion", "selfLink"] ++
    [("remainingItemCount", .int 64)])

/-- A page of a list: its objects, the token of the next page, and the version. -/
structure Page where
  objects : List Object
  next : Option String
  version : Option String

/-- Metadata may be missing, and items may be null; all else has to have its form. -/
def page? (j : Json) : Option Page :=
  let metadata? : Option Json :=
    match j.field? "metadata" with
    | none => some (.obj [])
    | some m => if pageMetadata.accepts m then some m else none
  let objects? : Option (List Object) :=
    match j.field? "items" with
    | some .null => some []
    | some (.arr items) => items.mapM Object.ofJson?
    | _ => none
  match metadata?, objects? with
  | some m, some objects =>
    some ⟨objects, filled (Metadata.textField m "continue"),
      filled (Metadata.textField m "resourceVersion")⟩
  | _, _ => none

def isRefusedStatus (status : Nat) : Bool := 400 ≤ status && status < 600

def Response.page? (r : Response) : Option Page :=
  if isRefusedStatus r.status then none
  else match r.documents with
    | [j] => Watch.page? j
    | _ => none

/-- The version of a bookmark, which has to look like an object. -/
def bookmark? (j : Json) : Option Notice :=
  match j.field? "apiVersion", j.field? "kind",
      (j.field? "metadata").bind fun m => (m.field? "resourceVersion").bind Json.text? with
  | some (.str _), some (.str _), some v => some (.bookmark v)
  | _, _, _ => none

/-- The code of a refusal, which has to have a status. -/
def refusal? (j : Json) : Option Notice :=
  let mayBeText (name : String) : Bool :=
    match j.field? name with
    | none => true
    | some v => v.text?.isSome
  match (j.field? "status").bind Json.text?, j.field? "code" with
  | some _, some (.int (.ofNat code)) =>
    if code < UInt16.size && mayBeText "message" && mayBeText "reason" then some (.refusal code)
    else none
  | _, _ => none

def notice? (j : Json) : Option Notice :=
  match (j.field? "type").bind Json.text?, j.field? "object" with
  | some "ADDED", some o => (Object.ofJson? o).map fun o => .change o (.applied o)
  | some "MODIFIED", some o => (Object.ofJson? o).map fun o => .change o (.applied o)
  | some "DELETED", some o => (Object.ofJson? o).map fun o => .change o (.deleted o)
  | some "BOOKMARK", some o => bookmark? o
  | some "ERROR", some o => refusal? o
  | _, _ => none

end Watch

namespace Phase

open Watch

def start : Phase := .listing none []

def question : Phase → Question
  | .listing page _ => .list page
  | .watching version => .watch version

def turnPage (listed : List Object) : Option Page → List Item × Phase
  | none => ([.failed listFailed], start)
  | some p =>
    match p.next, p.version with
    | some token, _ => ([], .listing (some token) (listed ++ p.objects))
    | none, some v => ([.change (.relisted (listed ++ p.objects))], .watching v)
    | none, none => ([.failed noVersion], start)

/-- Follow the documents of a watch from a version on. What stands behind one that ends the
watch is not read. -/
def follow (version : String) : List Json → List Item × Phase
  | [] => ([], .watching version)
  | j :: js =>
    match notice? j with
    | some (.change o c) =>
      match filled o.metadata.version with
      | some v =>
        let r := follow v js
        (.change c :: r.1, r.2)
      | none => ([.failed noVersion], start)
    | some (.bookmark v) => follow v js
    | some (.refusal code) =>
      if code = gone then ([.failed refused], start)
      else
        let r := follow version js
        (.failed refused :: r.1, r.2)
    | none =>
      let r := follow version js
      (.failed streamFailed :: r.1, r.2)

def hear (p : Phase) (r : Response) : List Item × Phase :=
  match p with
  | .listing _ listed => turnPage listed (Response.page? r)
  | .watching version => follow version r.documents

end Phase

structure Informer where
  phase : Phase := .start
  listening : Listening

/-- What happens between an informer, its server and its listener. -/
inductive Occurrence where
  | asked (q : Question)
  | called (c : Callback)

namespace Informer

def start (resource : String) : Informer := { listening := { resource } }

def hear (i : Informer) (r : Response) : Informer × List Callback :=
  let heard := i.phase.hear r
  let done := i.listening.run (heard.1.map .item)
  (⟨heard.2, done.1⟩, done.2)

def run (i : Informer) : List Response → Informer × List Occurrence
  | [] => (i, [])
  | r :: rs =>
    let a := i.hear r
    let b := a.1.run rs
    (b.1, .asked i.phase.question :: (a.2.map .called ++ b.2))

def stop (i : Informer) : Option (Result Unit) := (i.listening.step .cancelled).1.outcome?

end Informer

/-- The path under which objects are listed, of one namespace or of all. -/
def resourcePath (ns : Option String) (plural : String) : String :=
  match ns with
  | some ns => "/api/v1/namespaces/" ++ ns ++ "/" ++ plural
  | none => "/api/v1/" ++ plural

end SessionWatch.Cluster
