import KindCache.ApiServer.Conversion

/-!
# Listing and watching on an API server

A stream of watch events is had from an API server by listing the objects, page
by page, and then watching from the version of the list on.

* `Reply` — what the server answers to one request;
* `Item` — what the stream reports;
* `runFrom` — the items for a sequence of replies, with the objects as they were sent;
* `run` — the same items with the objects in the form in which they are kept.

A list that fails is begun again from its first page. A watch request that
fails, or whose answer has come to its end, is followed by another one. The
server may declare that the versions before the watch are gone, and an object
may come without a version: both lead to a new list, and the rest of the answer
is dropped.
-/

namespace KindCache.ApiServer.ListWatch

/-- The answer to one request. -/
inductive Reply where
  /-- a page of a list, with its version and the mark of the next page -/
  | page (items : List Document) (version next : Document)
  /-- the events of a watch -/
  | events (es : List Document)
  /-- no success -/
  | failure

/-- An item of the stream. -/
inductive Item where
  | event (e : WatchEvent)
  | failure

/-- An item about objects of a resource, with the objects as they are kept. -/
def Item.convert (r : Resource) : Item → Item
  | .event e => .event (Conversion.event r e)
  | .failure => .failure

/-- What is said of a failure of the stream. -/
def failureText : String :=
  "watch stream"

/-- The path of the objects of a resource. -/
def path (r : Resource) : String :=
  if r.gvk.group = "" then "/api/" ++ r.gvk.version ++ "/" ++ r.plural
  else "/apis/" ++ r.gvk.group ++ "/" ++ r.gvk.version ++ "/" ++ r.plural

/-! ## Single events -/

/-- What one event of a watch leads to. -/
inductive Step where
  | item (e : WatchEvent)
  | nothing
  | failed
  /-- a failure after which the objects have to be listed again -/
  | lost

/-- A field of an object that is a text. -/
def textField? (key : String) (d : Document) : Option String :=
  (d.get? key).bind Document.text?

/-- A field that may be missing, but not of another type. -/
def optionalText (key : String) (d : Document) : Bool :=
  match d.get? key with
  | none => true
  | some v => v.text?.isSome

/-- The event about an object, unless the object has no version. -/
def objectStep (make : Document → WatchEvent) (d : Document) : Step :=
  match Conversion.read? d with
  | none => .failed
  | some object =>
    let version := ((object.get? "metadata").bind (textField? "resourceVersion")).getD ""
    if version = "" then .lost else .item (make object)

/-- A mark of progress names its type and a version. -/
def bookmarkStep (d : Document) : Step :=
  let annotated :=
    match (d.get? "metadata").bind (·.get? "annotations") with
    | none => true
    | some a => (Metadata.textMap a).isSome
  let versioned := ((d.get? "metadata").bind (textField? "resourceVersion")).isSome
  if (textField? "apiVersion" d).isSome && (textField? "kind" d).isSome &&
      versioned && annotated then .nothing
  else .failed

/-- The code by which a server says that versions are gone. -/
def goneCode : Nat := 410

/-- An error that the server reports. -/
def errorStep (d : Document) : Step :=
  let code := (d.get? "code").bind (Document.natBelow? UInt16.size)
  let readable := (textField? "status" d).isSome && optionalText "message" d &&
    optionalText "reason" d
  if readable && code = some goneCode then .lost else .failed

/-- One event of a watch. -/
def step (e : Document) : Step :=
  match textField? "type" e, e.get? "object" with
  | some "ADDED", some d => objectStep .applied d
  | some "MODIFIED", some d => objectStep .applied d
  | some "DELETED", some d => objectStep .deleted d
  | some "BOOKMARK", some d => bookmarkStep d
  | some "ERROR", some d => errorStep d
  | _, _ => .failed

/-- The items of the events of one answer, and whether the objects have to be
listed again. -/
def watchItems : List Document → List Item × Bool
  | [] => ([], false)
  | e :: rest =>
    match step e with
    | .item event => let (items, lost) := watchItems rest; (.event event :: items, lost)
    | .nothing => watchItems rest
    | .failed => let (items, lost) := watchItems rest; (.failure :: items, lost)
    | .lost => ([.failure], true)

/-! ## The stream -/

/-- A text that may be null. -/
def nullableText? : Document → Option String
  | .null => some ""
  | d => d.text?

/-- Where the stream stands. -/
inductive Phase where
  /-- the pages before have brought these objects -/
  | listing (objects : List Document)
  | watching

/-- What a page of a list leads to. -/
def takePage (objects items : List Document) (version next : Document) : List Item × Phase :=
  match items.mapM Conversion.read?, nullableText? version, nullableText? next with
  | some page, some version, some next =>
    let objects := objects ++ page
    if next ≠ "" then ([], .listing objects)
    else if version = "" then ([.failure], .listing [])
    else ([.event (.relisted objects)], .watching)
  | _, _, _ => ([.failure], .listing [])

/-- What one answer leads to. -/
def take : Phase → Reply → List Item × Phase
  | .listing objects, .page items version next => takePage objects items version next
  | .listing _, _ => ([.failure], .listing [])
  | .watching, .events es =>
    let (items, lost) := watchItems es
    (items, if lost then .listing [] else .watching)
  | .watching, _ => ([.failure], .watching)

/-- The items for a sequence of answers. -/
def runFrom : Phase → List Reply → List Item
  | _, [] => []
  | phase, reply :: rest =>
    let (items, phase) := take phase reply
    items ++ runFrom phase rest

/-- The items of a stream about a resource from its start, with the objects as they
are kept. -/
def run (r : Resource) (replies : List Reply) : List Item :=
  (runFrom (.listing []) replies).map (Item.convert r)

end KindCache.ApiServer.ListWatch
