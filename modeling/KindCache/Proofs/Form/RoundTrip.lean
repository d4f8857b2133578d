import KindCache.Form.Access
import KindCache.Form.Query
import KindCache.Form.Settings
import KindCache.Proofs.Document.RoundTrip
import KindCache.Proofs.Selector.Grammar

/-!
# Values that are written and read

Every value has one form in which it is written, and many in which it is read: records may be
arrays, fields that are not needed may be missing, sets may be in any order, nanoseconds may make
up whole seconds. What is written is always read back.

* `Form.Faithful`, `Form.faithful` — a form that loses nothing, as a document and as a text;
* `Form.record_object`, `Form.optional_orNull`, `Form.list_map` — the parts of a form are read
  back, one lemma for each way to build a form;
* `ofDocument_toDocument`, `exact_toDocument` — for each type, its values are read back and their
  documents survive being printed;
* `forms_faithful`, `parts_faithful` — all forms lose nothing.
-/

namespace KindCache

namespace Form

variable {α : Type} {write : α → Document} {read : Document → Option α}

/-- A form of values that loses nothing. -/
structure Faithful (write : α → Document) (read : Document → Option α) : Prop where
  /-- a value is read back from the document that is written for it -/
  document : ∀ a, read (write a) = some a
  /-- it is read back from the text of this document too -/
  text : ∀ a, (Document.read? (write a).print).bind read = some a
  /-- whatever else a value is read from, writing and reading it once more gives the same -/
  again : ∀ d, ((read d).map write).bind read = read d
  /-- the same for whatever text -/
  againText : ∀ s, ((Document.read? s).bind read).bind
    (fun a => (Document.read? (write a).print).bind read) = (Document.read? s).bind read

/-- **Two facts make a form faithful**: that it is read back as a document, and that its
documents survive being printed. The other two promises follow, since what is written was
read before. -/
theorem faithful (hread : ∀ a, read (write a) = some a) (hexact : ∀ a, (write a).Exact) :
    Faithful write read := by
  have htext : ∀ a, (Document.read? (write a).print).bind read = some a := fun a => by
    rw [Document.read_print (hexact a)]
    exact hread a
  refine ⟨hread, htext, fun d => ?_, fun s => ?_⟩
  · rcases read d with _ | a
    · rfl
    · exact hread a
  · rcases (Document.read? s).bind read with _ | a
    · rfl
    · exact htext a

/-! ## Parts of forms -/

/-- A record is read back field by field, in the order in which it is written. -/
theorem record_object {fields : List Field} (h : (fields.map (·.1)).Nodup) :
    record? (fields.map (·.1)) (.object fields) = some (fields.map fun f => some f.2) := by
  rw [record?, List.map_map]
  refine congrArg some (List.map_congr_left fun f hf => ?_)
  exact Table.lookup_of_mem h hf

@[simp] theorem required_some (d : Document) : required? read (some d) = read d := rfl

/-- A value that may be missing is written as null then, which has to be told apart from all
values that are there. -/
theorem optional_orNull (hread : ∀ a, read (write a) = some a) (hnull : ∀ a, write a ≠ .null)
    (o : Option α) : optional? read (some (orNull write o)) = some o := by
  cases o with
  | none => rfl
  | some a =>
    rw [orNull, optional?, hread]
    · rfl
    · exact hnull a

theorem exact_orNull (h : ∀ a, (write a).Exact) (o : Option α) : (orNull write o).Exact := by
  cases o with
  | none => trivial
  | some a => exact h a

/-- A list is read back item by item. -/
theorem list_map (hread : ∀ a, read (write a) = some a) (as : List α) :
    list? read (.array (as.map write)) = some as := by
  show (as.map write).mapM read = some as
  induction as with
  | nil => rfl
  | cons a as ih =>
    rw [List.map_cons, List.mapM_cons, hread, ih]
    rfl

theorem exact_map (h : ∀ a, (write a).Exact) (as : List α) :
    (Document.array (as.map write)).Exact := by
  show Document.ExactItems (as.map write)
  induction as with
  | nil => trivial
  | cons a as ih => exact ⟨h a, ih⟩

/-- A number within the bounds of its field is not refused. -/
theorem natBelow_ofNat {n bound : Nat} (h : n < bound) :
    Document.natBelow? bound (.integer n) = some n :=
  if_pos h

theorem read_text (s : String) : Document.text? (.text s) = some s := rfl

theorem exact_text (s : String) : (Document.text s).Exact := trivial

@[simp] theorem optional_text (o : Option String) :
    optional? Document.text? (some (orNull .text o)) = some o :=
  optional_orNull read_text (fun s => by simp) o

@[simp] theorem exact_orNull_text (o : Option String) : (orNull .text o).Exact :=
  exact_orNull exact_text o

end Form

/-! ## Kinds, resources and references -/

namespace GroupVersionKind

@[simp] theorem ofDocument_toDocument (g : GroupVersionKind) :
    ofDocument? g.toDocument = some g := by
  have hrecord : Form.record? ["group", "version", "kind"] g.toDocument =
      some [some (.text g.group), some (.text g.version), some (.text g.kind)] :=
    Form.record_object (by simp)
  simp [ofDocument?, hrecord, Document.text?]

/-- Texts only. Most documents of forms are such, so that nothing has to be shown of
numbers. -/
@[simp] theorem exact_toDocument (g : GroupVersionKind) : g.toDocument.Exact := by
  simp [toDocument, Document.Exact, Document.ExactFields]

end GroupVersionKind

namespace Resource

theorem ofDocument_toDocument (r : Resource) : ofDocument? r.toDocument = some r := by
  have hrecord : Form.record? ["gvk", "plural", "namespaced"] r.toDocument =
      some [some r.gvk.toDocument, some (.text r.plural), some (.bool r.namespaced)] :=
    Form.record_object (by simp)
  simp [ofDocument?, hrecord, Document.text?, Document.bool?]

theorem exact_toDocument (r : Resource) : r.toDocument.Exact := by
  simp [toDocument, Document.Exact, Document.ExactFields]

theorem ofListing_toListing (r : Resource) : ofListing? r.toListing = some r := by
  have hrecord : Form.record? ["group", "version", "kind", "plural", "namespaced"] r.toListing =
      some [some (.text r.gvk.group), some (.text r.gvk.version), some (.text r.gvk.kind),
        some (.text r.plural), some (.bool r.namespaced)] :=
    Form.record_object (by simp)
  simp [ofListing?, hrecord, Document.text?, Document.bool?]

theorem exact_toListing (r : Resource) : r.toListing.Exact := by
  simp [toListing, Document.Exact, Document.ExactFields]

end Resource

namespace ObjectRef

theorem ofDocument_toDocument (r : ObjectRef) : ofDocument? r.toDocument = some r := by
  have hrecord : Form.record? ["namespace", "name"] r.toDocument =
      some [some (Form.orNull .text r.ns), some (.text r.name)] :=
    Form.record_object (by simp)
  simp [ofDocument?, hrecord, Document.text?]

theorem exact_toDocument (r : ObjectRef) : r.toDocument.Exact := by
  simp [toDocument, Document.Exact, Document.ExactFields]

end ObjectRef

/-! ## Rights and error classes -/

theorem Verb.ofDocument_toDocument (v : Verb) : ofDocument? v.toDocument = some v := by
  cases v <;> rfl

theorem ErrorKind.ofDocument_toDocument (k : ErrorKind) :
    ofDocument? k.toDocument = some k := by
  cases k <;> rfl

namespace AccessReview

theorem ofDocument_toDocument (r : AccessReview) : ofDocument? r.toDocument = some r := by
  have hrecord : Form.record? ["group", "version", "resource", "verb", "namespace"] r.toDocument =
      some [some (.text r.group), some (.text r.version), some (.text r.resource),
        some r.verb.toDocument, some (Form.orNull .text r.ns)] :=
    Form.record_object (by simp)
  simp [ofDocument?, hrecord, Document.text?, Verb.ofDocument_toDocument]

theorem exact_toDocument (r : AccessReview) : r.toDocument.Exact := by
  simp [toDocument, Verb.toDocument, Document.Exact, Document.ExactFields]

end AccessReview

namespace Access

theorem ofDocument_toDocument (a : Access) : ofDocument? a.toDocument = some a := by
  have hrecord : Form.record? ["get", "list", "watch"] a.toDocument =
      some [some (.bool a.get), some (.bool a.list), some (.bool a.watch)] :=
    Form.record_object (by simp)
  simp [ofDocument?, hrecord, Document.bool?]

theorem exact_toDocument (a : Access) : a.toDocument.Exact := by
  simp [toDocument, Document.Exact, Document.ExactFields]

end Access

/-! ## Selectors and queries -/

namespace ValueSet

/-- A set is written in order, and reading puts it in order. It is the same set, as two sets
in order with the same values are the same. -/
@[simp] theorem ofDocument_toDocument (s : ValueSet) : ofDocument? s.toDocument = some s := by
  rw [ofDocument?, toDocument, Form.list_map Form.read_text, Option.map_some]
  exact congrArg some (Selector.eq_of_mem_iff fun _ => Selector.mem_ofList)

@[simp] theorem exact_toDocument (s : ValueSet) : s.toDocument.Exact :=
  Form.exact_map Form.exact_text s.values

end ValueSet

namespace Requirement

/-- The operator of a requirement is the one key of its object, so that requirements of
different operators are never taken for one another. -/
theorem ofDocument_toDocument (r : Requirement) : ofDocument? r.toDocument = some r := by
  cases r <;> simp [toDocument, ofDocument?, Form.variant?]

theorem exact_toDocument (r : Requirement) : r.toDocument.Exact := by
  cases r <;>
    simp [toDocument, Document.Exact, Document.ExactFields, Document.ExactItems]

end Requirement

namespace Selector

theorem ofDocument_toDocument (s : Selector) : ofDocument? s.toDocument = some s := by
  have hrecord : Form.record? ["exprs"] s.toDocument =
      some [some (.array (s.requirements.map Requirement.toDocument))] :=
    Form.record_object (by simp)
  simp [ofDocument?, hrecord, Form.list_map Requirement.ofDocument_toDocument]

theorem exact_toDocument (s : Selector) : s.toDocument.Exact :=
  ⟨by simp, Form.exact_map Requirement.exact_toDocument s.requirements, trivial⟩

end Selector

namespace Query

/-- Namespace, name and selector may be missing. A selector without requirements is written,
and is read as such and not as none. -/
theorem ofDocument_toDocument (q : Query) : ofDocument? q.toDocument = some q := by
  have hrecord : Form.record? ["gvk", "namespace", "name", "selector"] q.toDocument =
      some [some q.gvk.toDocument, some (Form.orNull .text q.ns), some (Form.orNull .text q.name),
        some (Form.orNull Selector.toDocument q.selector)] :=
    Form.record_object (by simp)
  have hselector := Form.optional_orNull Selector.ofDocument_toDocument
    (fun s => by simp [Selector.toDocument]) q.selector
  simp [ofDocument?, hrecord, hselector]

theorem exact_toDocument (q : Query) : q.toDocument.Exact := by
  simp [toDocument, Document.Exact, Document.ExactFields,
    Form.exact_orNull Selector.exact_toDocument]

end Query

/-! ## Settings -/

namespace Duration

/-- A duration is read from the sum of its nanoseconds, which gives back its seconds, as the
nanoseconds of a duration are fewer than a second has. -/
theorem ofNanos_toNanos (d : Duration) : ofNanos? d.toNanos = some d := by
  obtain ⟨secs, nanos, hnanos⟩ := d
  have hsecs : (secs.toNat * 1000000000 + nanos) / 1000000000 = secs.toNat := by omega
  have hrest : (secs.toNat * 1000000000 + nanos) % 1000000000 = nanos := by omega
  have hlt : secs.toNat < UInt64.size := secs.toNat_lt
  simp only [ofNanos?, toNanos, hsecs, hrest]
  rw [if_pos hlt, UInt64.ofNat_toNat]

/-- A record of a duration is read through its nanoseconds, which may make up whole
seconds. -/
theorem ofDocument_record {d secs nanos : Document}
    (hrecord : Form.record? ["secs", "nanos"] d = some [some secs, some nanos])
    (hkeys : onlyOwnKeys d = true) :
    ofDocument? d = (Document.natBelow? UInt64.size secs).bind fun secs =>
      (Document.natBelow? UInt32.size nanos).bind fun nanos =>
        ofNanos? (secs * 1000000000 + nanos) := by
  unfold ofDocument?
  rw [hkeys, hrecord]
  rfl

/-- A duration is written with fewer nanoseconds than a second has, so nothing is carried
over when it is read. -/
theorem ofDocument_toDocument (d : Duration) : ofDocument? d.toDocument = some d := by
  have hrecord : Form.record? ["secs", "nanos"] d.toDocument =
      some [some (.integer d.secs.toNat), some (.integer d.nanos.val)] :=
    Form.record_object (by simp)
  have hkeys : onlyOwnKeys d.toDocument = true := by simp [onlyOwnKeys, toDocument]
  have hsecs : d.secs.toNat < UInt64.size := d.secs.toNat_lt
  have hnanos : d.nanos.val < UInt32.size := Nat.lt_trans d.nanos.isLt (by decide)
  rw [ofDocument_record hrecord hkeys, Form.natBelow_ofNat hsecs, Option.bind_some,
    Form.natBelow_ofNat hnanos, Option.bind_some]
  exact d.ofNanos_toNanos

/-- Seconds use all of 64 bits, and are printed in full. -/
theorem exact_toDocument (d : Duration) : d.toDocument.Exact := by
  have hnanos : d.nanos.val < UInt64.size := Nat.lt_trans d.nanos.isLt (by decide)
  exact ⟨by simp, Document.exact_natural d.secs.toNat_lt, Document.exact_natural hnanos, trivial⟩

end Duration

namespace Settings

/-- The numbers are within the bounds of their fields, which are those of their types. -/
theorem ofDocument_toDocument (s : Settings) : ofDocument? s.toDocument = some s := by
  have hrecord :
      Form.record? ["get_attempts", "get_retry_delay", "event_queue_cap", "sync_timeout"]
        s.toDocument = some [some (.integer s.getAttempts.toNat),
          some s.getRetryDelay.toDocument, some (.integer s.eventQueueCap.toNat),
          some (Form.orNull Duration.toDocument s.syncTimeout)] :=
    Form.record_object (by simp)
  have hattempts : s.getAttempts.toNat < UInt32.size := s.getAttempts.toNat_lt
  have hcap : s.eventQueueCap.toNat < UInt64.size := s.eventQueueCap.toNat_lt
  have htimeout := Form.optional_orNull Duration.ofDocument_toDocument
    (fun d => by simp [Duration.toDocument]) s.syncTimeout
  simp [ofDocument?, hrecord, htimeout, Duration.ofDocument_toDocument,
    Form.natBelow_ofNat hattempts, Form.natBelow_ofNat hcap]

theorem exact_toDocument (s : Settings) : s.toDocument.Exact := by
  have hattempts : s.getAttempts.toNat < UInt64.size :=
    Nat.lt_trans s.getAttempts.toNat_lt (by decide)
  exact ⟨by simp, Document.exact_natural hattempts, s.getRetryDelay.exact_toDocument,
    Document.exact_natural s.eventQueueCap.toNat_lt,
    Form.exact_orNull Duration.exact_toDocument s.syncTimeout, trivial⟩

end Settings

/-! ## All forms -/

/-- **Queries, resources, references, rights and settings keep all they are when they are
written and read**, as documents and as texts; and whatever else they are read from, writing
them once settles the form. -/
theorem forms_faithful :
    Form.Faithful Query.toDocument Query.ofDocument? ∧
    Form.Faithful Resource.toDocument Resource.ofDocument? ∧
    Form.Faithful ObjectRef.toDocument ObjectRef.ofDocument? ∧
    Form.Faithful Access.toDocument Access.ofDocument? ∧
    Form.Faithful AccessReview.toDocument AccessReview.ofDocument? ∧
    Form.Faithful Settings.toDocument Settings.ofDocument? :=
  ⟨Form.faithful Query.ofDocument_toDocument Query.exact_toDocument,
    Form.faithful Resource.ofDocument_toDocument Resource.exact_toDocument,
    Form.faithful ObjectRef.ofDocument_toDocument ObjectRef.exact_toDocument,
    Form.faithful Access.ofDocument_toDocument Access.exact_toDocument,
    Form.faithful AccessReview.ofDocument_toDocument AccessReview.exact_toDocument,
    Form.faithful Settings.ofDocument_toDocument Settings.exact_toDocument⟩

/-- A query as an array, with a set out of order, and the form in which it is written. -/
example : (Query.ofDocument? (.array [.array [.text "", .text "v1", .text "Pod"], .null,
      .text "web", .object [("exprs", .array [.object [("In", .array [.text "app",
        .array [.text "b", .text "a", .text "b"]])]])]])).map Query.toDocument =
    some (.object [("gvk", .object [("group", .text ""), ("version", .text "v1"),
        ("kind", .text "Pod")]), ("namespace", .null), ("name", .text "web"),
      ("selector", .object [("exprs", .array [.object [("In", .array [.text "app",
        .array [.text "a", .text "b"]])]])])]) := rfl

/-- The values that stand inside of others, the entries of a listing and the classes of errors keep
all they are, too. -/
theorem parts_faithful :
    Form.Faithful GroupVersionKind.toDocument GroupVersionKind.ofDocument? ∧
    Form.Faithful Requirement.toDocument Requirement.ofDocument? ∧
    Form.Faithful Selector.toDocument Selector.ofDocument? ∧
    Form.Faithful Duration.toDocument Duration.ofDocument? ∧
    Form.Faithful Verb.toDocument Verb.ofDocument? ∧
    Form.Faithful Resource.toListing Resource.ofListing? ∧
    Form.Faithful ErrorKind.toDocument ErrorKind.ofDocument? :=
  ⟨Form.faithful GroupVersionKind.ofDocument_toDocument GroupVersionKind.exact_toDocument,
    Form.faithful Requirement.ofDocument_toDocument Requirement.exact_toDocument,
    Form.faithful Selector.ofDocument_toDocument Selector.exact_toDocument,
    Form.faithful Duration.ofDocument_toDocument Duration.exact_toDocument,
    Form.faithful Verb.ofDocument_toDocument fun v => Form.exact_text v.tag,
    Form.faithful Resource.ofListing_toListing Resource.exact_toListing,
    Form.faithful ErrorKind.ofDocument_toDocument fun k => Form.exact_text k.text⟩

end KindCache
