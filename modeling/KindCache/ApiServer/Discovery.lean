import KindCache.ApiServer.Version
import KindCache.Document.Basic
import KindCache.Kind

/-!
# Discovery

What an API server serves is found by asking for its groups, for the resources
of every version of every group, and for the versions and resources of the core
group. If anything of that cannot be had, the discovery fails as a whole.

Of each group one version counts: the preferred one, or the one of highest
priority if none is preferred. In the core group that is always `v1`. A
preferred version that is not served leaves the group without resources.

The functions take the server as the function from paths to its replies.
-/

namespace KindCache.ApiServer.Discovery

/-- The replies of a server; none where it has nothing. -/
abbrev Server := String → Option Document

/-! ## Reading replies -/

/-- A field that may be missing or null. -/
def field? (read : Document → Option α) (key : String) (d : Document) : Option (Option α) := do
  let fields ← d.fields?
  match fields.lookup key with
  | none | some .null => return none
  | some v => return some (← read v)

/-- A field with a default. -/
def fieldOr (standIn : α) (read : Document → Option α) (key : String) (d : Document) :
    Option α :=
  (field? read key d).map (·.getD standIn)

/-- An array. -/
def arrayOf (read : Document → Option α) (d : Document) : Option (List α) := do
  (← d.items?).mapM read

/-- Whether a reply is of the expected type, as far as it names its type. -/
def hasType (kind : String) (d : Document) : Bool :=
  let agrees (key expected : String) : Bool :=
    match d.get? key with
    | none => true
    | some v => v.text? = some expected
  agrees "apiVersion" "v1" && agrees "kind" kind

/-- A version of a group: its name, and the path of its resources. -/
structure GroupVersion where
  /-- the group and the version, as they stand in the path -/
  groupVersion : String
  /-- the version alone -/
  version : String

/-- A group. -/
structure Group where
  /-- the name of the group -/
  name : String
  /-- the versions in which it is served -/
  versions : List GroupVersion
  /-- the version that the server prefers -/
  preferred : Option String

/-- A resource of a list of resources. -/
structure Entry where
  /-- the plural name, behind which a part of the resource may be named -/
  name : String
  /-- the kind -/
  kind : String
  /-- whether its objects live in namespaces -/
  namespaced : Bool
  /-- a group other than that of the list -/
  group : Option String
  /-- a version other than that of the list -/
  version : Option String

/-- The resources of one version. -/
structure ResourceList where
  /-- the group and version of the list -/
  groupVersion : String
  /-- its entries -/
  entries : List Entry

/-- Read a version of a group. -/
def GroupVersion.read? (d : Document) : Option GroupVersion := do
  return {
    groupVersion := ← fieldOr "" Document.text? "groupVersion" d
    version := ← fieldOr "" Document.text? "version" d }

/-- Read a group. -/
def Group.read? (d : Document) : Option Group := do
  if !hasType "APIGroup" d then none
  return {
    name := ← fieldOr "" Document.text? "name" d
    versions := ← fieldOr [] (arrayOf GroupVersion.read?) "versions" d
    preferred := (← field? GroupVersion.read? "preferredVersion" d).map (·.version) }

/-- Read an entry of a list of resources. -/
def Entry.read? (d : Document) : Option Entry := do
  let texts := arrayOf Document.text?
  let _ ← field? texts "categories" d
  let _ ← field? texts "shortNames" d
  let _ ← field? texts "verbs" d
  let _ ← field? Document.text? "singularName" d
  let _ ← field? Document.text? "storageVersionHash" d
  return {
    name := ← fieldOr "" Document.text? "name" d
    kind := ← fieldOr "" Document.text? "kind" d
    namespaced := ← fieldOr false Document.bool? "namespaced" d
    group := ← field? Document.text? "group" d
    version := ← field? Document.text? "version" d }

/-- Read a list of resources. -/
def ResourceList.read? (d : Document) : Option ResourceList := do
  if !hasType "APIResourceList" d then none
  return {
    groupVersion := ← fieldOr "" Document.text? "groupVersion" d
    entries := ← fieldOr [] (arrayOf Entry.read?) "resources" d }

/-- Read the list of groups. -/
def readGroups? (d : Document) : Option (List Group) := do
  if !hasType "APIGroupList" d then none
  fieldOr [] (arrayOf Group.read?) "groups" d

/-- Read the versions of the core group. -/
def readCoreVersions? (d : Document) : Option (List String) := do
  if !hasType "APIVersions" d then none
  fieldOr [] (arrayOf Document.text?) "versions" d

/-! ## Resources -/

/-- A group and version from the text that names both; the core group is not
named. -/
def splitGroupVersion (s : String) : String × String :=
  match Text.breakAt ['/'] s.toList with
  | some (group, version) => (String.ofList group, String.ofList version)
  | none => ("", s)

/-- Whether an entry names a part of a resource and not a whole one. -/
def Entry.isPart (e : Entry) : Bool :=
  e.name.toList.contains '/'

/-- The resource of an entry. Of several entries with one name the first says
whether it lives in namespaces. -/
def Entry.resource (list : ResourceList) (e : Entry) : Resource :=
  let (group, version) := splitGroupVersion list.groupVersion
  { gvk := ⟨e.group.getD group, e.version.getD version, e.kind⟩
    plural := e.name
    namespaced := ((list.entries.find? fun x => x.name = e.name).getD e).namespaced }

/-- The resources of a list. -/
def ResourceList.resources (list : ResourceList) : List Resource :=
  (list.entries.filter fun e => !e.isPart).map (Entry.resource list)

/-- The resources at a path. -/
def resourcesAt? (server : Server) (path : String) : Option (List Resource) :=
  ((server path).bind ResourceList.read?).map ResourceList.resources

/-! ## Groups -/

/-- The resources of the version that counts: the preferred one, or else the one
of highest priority. -/
def chosen (versions : List (String × List Resource)) (preferred : Option String) :
    List Resource :=
  let version := preferred <|> Version.highest? (versions.map (·.1))
  (version.bind fun v => versions.lookup v).getD []

/-- The resources of a group. -/
def groupResources? (server : Server) (g : Group) : Option (List Resource) := do
  if g.versions.isEmpty then none
  let versions ← g.versions.mapM fun v => do
    return (v.version, ← resourcesAt? server ("/apis/" ++ v.groupVersion))
  return chosen versions g.preferred

/-- The resources of the core group. -/
def coreResources? (server : Server) : Option (List Resource) := do
  let names ← (server "/api").bind readCoreVersions?
  if names.isEmpty then none
  let versions ← names.mapM fun v => do
    return (v, ← resourcesAt? server ("/api/" ++ v))
  return chosen versions (some "v1")

/-- Everything a server serves, in ascending order of the kinds. A group that is
listed twice counts as it is listed last, and so does the core group. -/
def discover? (server : Server) : Option (List Resource) := do
  let groups ← (server "/apis").bind readGroups?
  let found ← groups.mapM fun g => do return (g.name, ← groupResources? server g)
  let core ← coreResources? server
  let table : Table String (List Resource) :=
    (found ++ [("", core)]).foldl (fun t (name, rs) => Table.put name rs t) []
  let all := table.flatMap (·.2)
  return all.mergeSort fun a b => !b.gvk.before a.gvk

/-- What is said of a discovery that failed. -/
def failure : String :=
  "running discovery"

end KindCache.ApiServer.Discovery
