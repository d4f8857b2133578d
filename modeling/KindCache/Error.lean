import KindCache.Access.Basic

/-!
# Errors of the cache

* `CacheError` — the causes, and two wrappers that say what was being done when
  a cause arose;
* `ErrorKind` — the coarse class of an error, which looks through the wrappers;
* `CacheError.message` — the one place where errors get their wording.
-/

namespace KindCache

/-- The class of an error. -/
inductive ErrorKind where
  | accessDenied
  | resolution
  | notFound
  | filteredOut
  | shuttingDown
  | transient
deriving DecidableEq, Repr

namespace ErrorKind

/-- All classes. -/
def all : List ErrorKind :=
  [.accessDenied, .resolution, .notFound, .filteredOut, .shuttingDown, .transient]

/-- The name of a class. -/
def text : ErrorKind → String
  | .accessDenied => "AccessDenied"
  | .resolution => "Resolution"
  | .notFound => "NotFound"
  | .filteredOut => "FilteredOut"
  | .shuttingDown => "ShuttingDown"
  | .transient => "Transient"

/-- The class with a given name. -/
def ofText? (s : String) : Option ErrorKind :=
  all.find? fun k => k.text = s

end ErrorKind

/-- What can go wrong when the cache is asked for something. -/
inductive CacheError where
  /-- one of the three rights is missing; final until the credentials change -/
  | accessDenied (resource : String) (access : Access)
  /-- a kind, a selector or a request that is unknown or malformed -/
  | resolution (reason : String)
  /-- there is no such object -/
  | notFound (reference : String)
  /-- the object is there, but the selector of the request excludes it -/
  | filteredOut (reference selector : String)
  /-- the process is being stopped -/
  | shuttingDown
  /-- a failure of the network or the server, or a cache that cannot answer yet -/
  | transient (reason : String)
  /-- no watcher could be had for the query -/
  | unresolved (query : String) (cause : CacheError)
  /-- the last try of a retried read failed too -/
  | exhausted (query : String) (retries : Nat) (cause : CacheError)
deriving DecidableEq, Repr

namespace CacheError

/-- The class of the innermost cause. -/
def kind : CacheError → ErrorKind
  | .accessDenied .. => .accessDenied
  | .resolution _ => .resolution
  | .notFound _ => .notFound
  | .filteredOut .. => .filteredOut
  | .shuttingDown => .shuttingDown
  | .transient _ => .transient
  | .unresolved _ cause => cause.kind
  | .exhausted _ _ cause => cause.kind

/-- Whether the error says that the object is definitely absent. -/
def isNotFound (e : CacheError) : Bool :=
  e.kind = .notFound

/-- The errors below a wrapper, outermost first. -/
def causes : CacheError → List CacheError
  | .unresolved _ cause => cause :: cause.causes
  | .exhausted _ _ cause => cause :: cause.causes
  | _ => []

/-- The wording of an error. -/
def message : CacheError → String
  | .accessDenied resource access =>
    "check access: " ++ resource ++
      ": requires scope-wide get/list/watch access, have " ++ access.text
  | .resolution reason => "resolution: " ++ reason
  | .notFound reference => "not_found: " ++ reference
  | .filteredOut reference selector =>
    "object found but filtered by selector: " ++ reference ++ " (selector " ++ selector ++ ")"
  | .shuttingDown => "shutting down"
  | .transient reason => "transient: " ++ reason
  | .unresolved query cause =>
    "retrieving watcher for " ++ query ++ ": " ++ cause.message
  | .exhausted query retries cause =>
    "get " ++ query ++ " failed after " ++ retries.repr ++ " retries: " ++ cause.message

end CacheError

end KindCache
