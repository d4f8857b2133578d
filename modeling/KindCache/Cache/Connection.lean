import KindCache.Cache.Outside

/-!
# Connecting

A process gets its cache by `Cache.connect`: the credentials must be there and
readable, and the settings are those of its environment. The cluster itself is
not asked for anything before the first call.
-/

namespace KindCache

/-- What was found of the credentials for a cluster. -/
inductive Credentials where
  | readable
  | malformed
  | missing
deriving DecidableEq, Repr

/-- A cache over the cluster to which the credentials lead, or the class of the
error: credentials may still turn up or be mended. -/
def Cache.connect (cluster : Cluster) (env : String → Option String) :
    Credentials → Except ErrorKind Cache
  | .readable => .ok (.starting cluster (.ofEnvironment env))
  | .malformed => .error .transient
  | .missing => .error .transient

end KindCache
