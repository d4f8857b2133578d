import KindCache.Access.Basic
import KindCache.Document.Printer

/-!
# Access reviews on an API server

A review is posted as an object, and the server answers with the same object
and a status. Without a status nothing is allowed.
-/

namespace KindCache.ApiServer.Review

/-- Where reviews are posted. -/
def path : String :=
  "/apis/authorization.k8s.io/v1/selfsubjectaccessreviews"

/-- An attribute, unless it is not given. -/
def givenAttribute (key : String) : Option String → List Field
  | some s => [(key, .text s)]
  | none => []

/-- What the review is about; the core group is not named. -/
def attributes (r : AccessReview) : List Field :=
  givenAttribute "group" (if r.group = "" then none else some r.group) ++
  givenAttribute "namespace" r.ns ++
  givenAttribute "resource" (some r.resource) ++
  givenAttribute "verb" (some r.verb.text) ++
  givenAttribute "version" (some r.version)

/-- The posted object. -/
def body (r : AccessReview) : Document :=
  .object [
    ("apiVersion", .text "authorization.k8s.io/v1"),
    ("kind", .text "SelfSubjectAccessReview"),
    ("metadata", .object []),
    ("spec", .object [("resourceAttributes", .object (attributes r))])]

/-- Whether a field of a status is missing, null or of the expected type. -/
def fits (read : Document → Option α) (key : String) (status : Document) : Bool :=
  match status.get? key with
  | none | some .null => true
  | some d => (read d).isSome

/-- Whether a status allows what was asked; none if it cannot be read. -/
def allowed? (status : Option Document) : Option Bool :=
  match status with
  | none | some .null => some false
  | some (.object fields) =>
    let status := Document.object fields
    if fits Document.bool? "allowed" status && fits Document.bool? "denied" status &&
        fits Document.text? "evaluationError" status && fits Document.text? "reason" status then
      some (((status.get? "allowed").bind Document.bool?).getD false)
    else none
  | some _ => none

/-- What is said of a review that failed. -/
def failure : String :=
  "creating SelfSubjectAccessReview"

end KindCache.ApiServer.Review
