import KindCache.ApiServer.ListWatch
import KindCache.Proofs.ApiServer.Conversion

/-!
# Objects that are read

Reading an object changes what it holds: its type and its metadata are put in front, its
metadata are brought into one form, and a type that is not complete is dropped. It still leaves
no key twice.

So whatever a server answers, the objects of a stream are objects without repeated keys, and
all events of the stream come with the documents that are kept.

* `Metadata.Proper` — a field type that stores values without repeated keys only;
* `proper_record` — a record is such a type if its fields are, and have different names;
* `takeType_subperm` — taking the type out of an object adds nothing and repeats nothing;
* `sent_of_read` — what is read is an object without repeated keys;
* `sent_of_take`, `sent_of_runFrom` — the objects of one answer, and of a whole stream;
* `converts_run` — what a stream tells, item by item.
-/

namespace KindCache.ApiServer

/-- What is read of a list is read of its items. Each result comes from one of them, and
this is all that is needed to carry a property over. -/
theorem mem_of_mapM {α β : Type} {read : α → Option β} {as : List α} {bs : List β}
    (h : as.mapM read = some bs) : ∀ b ∈ bs, ∃ a ∈ as, read a = some b := by
  induction as generalizing bs with
  | nil =>
    cases h
    exact fun b hb => absurd hb List.not_mem_nil
  | cons a as ih =>
    rw [List.mapM_cons] at h
    obtain ⟨b, hb, h⟩ := Option.bind_eq_some_iff.mp h
    obtain ⟨bs, hbs, h⟩ := Option.bind_eq_some_iff.mp h
    cases h
    refine List.forall_mem_cons.mpr ⟨⟨a, List.mem_cons_self, hb⟩, fun b hb => ?_⟩
    obtain ⟨a, ha, h⟩ := ih hbs b hb
    exact ⟨a, List.mem_cons_of_mem _ ha, h⟩

/-! ## Metadata -/

namespace Metadata

/-- What a field type stores for a value repeats no key, unless the value does. It is asked
of each field type of the metadata, and passes from the parts of a type to the whole. -/
def Proper (type : FieldType) : Prop :=
  ∀ d stored, d.Distinct → type d = some stored → stored.Distinct

variable {type : RecordType} {item : FieldType} {fields out : List Field}

@[simp] theorem proper_text : Proper text := by
  intro d stored _ h
  unfold text at h
  split at h <;> cases h
  trivial

@[simp] theorem proper_flag : Proper flag := by
  intro d stored _ h
  unfold flag at h
  split at h <;> cases h
  trivial

@[simp] theorem proper_integer : Proper integer := by
  intro d stored _ h
  unfold integer at h
  split at h
  · split at h <;> cases h
    trivial
  · cases h

@[simp] theorem proper_time : Proper time := by
  intro d stored _ h
  unfold time at h
  split at h
  · obtain ⟨t, -, rfl⟩ := Option.map_eq_some_iff.mp h
    trivial
  · cases h

@[simp] theorem proper_anything : Proper anything := by
  intro d stored hd h
  cases h
  exact hd

/-- A list is stored item by item, or not at all. -/
theorem proper_list (h : Proper item) : Proper (list item) := by
  intro d stored hd hstored
  unfold list at hstored
  split at hstored
  · next items =>
    obtain ⟨stored, hread, rfl⟩ := Option.map_eq_some_iff.mp hstored
    refine Document.distinctItems_iff.mpr fun d' hd' => ?_
    obtain ⟨a, ha, hread⟩ := mem_of_mapM hread d' hd'
    exact h a d' (Document.distinctItems_iff.mp hd a ha) hread
  · cases hstored

@[simp] theorem proper_textMap : Proper textMap := by
  intro d stored hd h
  unfold textMap at h
  split at h
  · next fields =>
    split at h
    · cases h
      have hperm := List.mergeSort_perm fields fun a b => decide (a.1 ≤ b.1)
      refine ⟨(hperm.map _).nodup_iff.mpr hd.1, Document.distinctFields_iff.mpr fun f hf => ?_⟩
      exact Document.distinctFields_iff.mp hd.2 f (hperm.mem_iff.mp hf)
    · cases h
  · cases h

/-- A field of a record: left out, or what stands in for it, or what its type stores.
Reading a record is a recursion over its type, and this is its step. -/
theorem recordFields_cons {name : String} {fieldType : FieldType} {standIn : Option Document}
    (h : recordFields fields ((name, fieldType, standIn) :: type) = some out) :
    ∃ rest, recordFields fields type = some rest ∧
      (out = (standIn.map (name, ·)).toList ++ rest ∨
        ∃ d stored, fields.lookup name = some d ∧ fieldType d = some stored ∧
          out = (name, stored) :: rest) := by
  unfold recordFields at h
  obtain ⟨rest, hrest, h⟩ := Option.bind_eq_some_iff.mp h
  refine ⟨rest, hrest, ?_⟩
  split at h
  · cases h
    exact .inl rfl
  · cases h
    exact .inl rfl
  · next d _ hlookup =>
    obtain ⟨stored, hstored, h⟩ := Option.bind_eq_some_iff.mp h
    cases h
    exact .inr ⟨d, stored, hlookup, hstored, rfl⟩

/-- A record has the names of its type, in their order. That no name is there twice is then
a matter of the type. -/
theorem recordFields_sublist (h : recordFields fields type = some out) :
    (out.map (·.1)).Sublist (type.map (·.1)) := by
  induction type generalizing out with
  | nil =>
    cases h
    exact .slnil
  | cons t type ih =>
    obtain ⟨name, fieldType, standIn⟩ := t
    obtain ⟨rest, hrest, rfl | ⟨d, stored, -, -, rfl⟩⟩ := recordFields_cons h
    · cases standIn with
      | none => exact (ih hrest).cons name
      | some d => exact (ih hrest).cons_cons name
    · exact (ih hrest).cons_cons name

/-- The values of its fields come from their types or from what stands in for them. -/
theorem recordFields_distinct (hfields : Document.DistinctFields fields)
    (hproper : ∀ t ∈ type, Proper t.2.1) (hstandIn : ∀ t ∈ type, ∀ d ∈ t.2.2, d.Distinct)
    (h : recordFields fields type = some out) : ∀ f ∈ out, f.2.Distinct := by
  induction type generalizing out with
  | nil =>
    cases h
    exact fun f hf => absurd hf List.not_mem_nil
  | cons t type ih =>
    obtain ⟨name, fieldType, standIn⟩ := t
    obtain ⟨hfirst, hmore⟩ := List.forall_mem_cons.mp hproper
    obtain ⟨hstand, hstandMore⟩ := List.forall_mem_cons.mp hstandIn
    obtain ⟨rest, hrest, hout⟩ := recordFields_cons h
    have hih := ih hmore hstandMore hrest
    rcases hout with rfl | ⟨d, stored, hlookup, hstored, rfl⟩
    · cases standIn with
      | none => exact hih
      | some d => exact List.forall_mem_cons.mpr ⟨hstand d rfl, hih⟩
    · have hd := Document.distinctFields_iff.mp hfields _ (Table.mem_of_lookup hlookup)
      exact List.forall_mem_cons.mpr ⟨hfirst d stored hd hstored, hih⟩

/-- **A record stores values without repeated keys** if its fields do, and have different
names. All composite types of the metadata are of this form. -/
theorem proper_record (hnames : (type.map (·.1)).Nodup) (hproper : ∀ t ∈ type, Proper t.2.1)
    (hstandIn : ∀ t ∈ type, ∀ d ∈ t.2.2, d.Distinct) : Proper (record type) := by
  intro d stored hd hstored
  unfold record at hstored
  split at hstored
  · next fields =>
    obtain ⟨out, hout, rfl⟩ := Option.map_eq_some_iff.mp hstored
    exact ⟨hnames.sublist (recordFields_sublist hout),
      Document.distinctFields_iff.mpr (recordFields_distinct hd.2 hproper hstandIn hout)⟩
  · cases hstored

theorem proper_ownerReference : Proper ownerReference :=
  proper_record (by decide) (by simp) (by simp [Document.Distinct])

theorem proper_managedFields : Proper managedFields :=
  proper_record (by decide) (by simp) (by simp)

/-- So are the metadata as a whole. The names of their fields are compared by evaluation. -/
theorem proper_normal : Proper normal? :=
  proper_record (by decide)
    (by simp [proper_list, proper_ownerReference, proper_managedFields]) (by simp)

end Metadata

/-! ## Objects -/

namespace Conversion

variable {d object : Document}

/-- What is taken out of an object and what is left are fields of it, none of them twice.
They may be in another order, which is why this is about permutations. -/
theorem takeType_subperm (fields : List Field) :
    ((takeType fields).1 ++ (takeType fields).2).Subperm fields := by
  induction fields with
  | nil => exact List.nil_subperm
  | cons f fields ih =>
    obtain ⟨key, d⟩ := f
    unfold takeType
    split
    · split
      · exact (List.subperm_cons _).mpr ih
      · exact List.Subperm.cons_self
    · exact List.perm_middle.subperm.trans ((List.subperm_cons _).mpr ih)

/-- The type that is stored was taken out. If only one half of it was there it is dropped,
so there may be less of it. -/
theorem typeFields_subperm (type : Table String Document) : (typeFields type).Subperm type := by
  unfold typeFields
  split
  · next version kind hversion hkind =>
    refine List.subperm_of_subset (by simp) fun f hf => ?_
    rcases List.mem_pair.mp hf with rfl | rfl
    · exact Table.mem_of_lookup hversion
    · exact Table.mem_of_lookup hkind
  · exact List.nil_subperm

/-- **What is read of a document without repeated keys is an object without repeated keys.**
Type, metadata and the rest are put together again from parts that have different names. -/
theorem sent_of_read (hd : d.Distinct) (h : read? d = some object) : Sent object := by
  unfold read? at h
  split at h
  · next fields =>
    obtain ⟨metadata, hmetadata, h⟩ := Option.bind_eq_some_iff.mp h
    cases h
    have hstored : metadata.Distinct := by
      refine Metadata.proper_normal _ _ ?_ hmetadata
      rcases hlookup : fields.lookup "metadata" with _ | m
      · exact ⟨List.nodup_nil, trivial⟩
      · exact hd.child (s := .key "metadata") hlookup
    -- the type and what is left of the other fields, in some order
    obtain ⟨others, hperm, hsub⟩ :=
      ((List.subperm_append_right _).mpr (typeFields_subperm _)).trans
        (takeType_subperm (fields.filter fun f => f.1 ≠ "metadata"))
    have hkeys : ((("metadata", metadata) :: others).map (·.1)).Nodup := by
      rw [List.map_cons, List.nodup_cons]
      refine ⟨fun hmem => ?_, hd.1.sublist ((hsub.trans List.filter_sublist).map _)⟩
      obtain ⟨f, hf, hkey⟩ := List.mem_map.mp hmem
      simpa [hkey] using (List.mem_filter.mp (hsub.subset hf)).2
    have hall := List.perm_middle.trans (hperm.symm.cons ("metadata", metadata))
    refine ⟨⟨(hall.map _).nodup_iff.mpr hkeys, Document.distinctFields_iff.mpr ?_⟩, _, rfl⟩
    intro f hf
    rcases List.mem_cons.mp (hall.mem_iff.mp hf) with rfl | hf
    · exact hstored
    · exact Document.distinctFields_iff.mp hd.2 f (List.mem_of_mem_filter (hsub.subset hf))
  · cases h

end Conversion

/-! ## The stream -/

namespace ListWatch

open Conversion (Sent)

/-- No document of an answer holds a key twice. -/
def Reply.Distinct : Reply → Prop
  | .page items _ _ => ∀ d ∈ items, d.Distinct
  | .events es => ∀ e ∈ es, e.Distinct
  | .failure => True

/-- The objects that an item is about are as they were sent. -/
def Item.Sent : Item → Prop
  | .event e => ∀ d ∈ e.documents, Conversion.Sent d
  | .failure => True

/-- The objects that were listed so far are as they were sent. -/
def Phase.Sent : Phase → Prop
  | .listing objects => ∀ d ∈ objects, Conversion.Sent d
  | .watching => True

/-- An item next to the one that is told of it. -/
inductive Item.Converts (r : Resource) : Item → Item → Prop where
  | event {e told : WatchEvent} (h : Conversion.Converts r e told) :
    Item.Converts r (.event e) (.event told)
  | failure : Item.Converts r .failure .failure

variable {r : Resource} {phase : Phase} {reply : Reply} {replies : List Reply} {d e : Document}
  {event : WatchEvent} {make : Document → WatchEvent}

/-- An event about one object is about what was read of it. -/
theorem sent_of_objectStep (hd : d.Distinct) (hmake : ∀ object, (make object).documents = [object])
    (h : objectStep make d = .item event) : ∀ object ∈ event.documents, Sent object := by
  unfold objectStep at h
  split at h
  · cases h
  · next object hread =>
    dsimp only at h
    split at h
    · cases h
    · cases h
      intro sent hsent
      rw [hmake, List.mem_singleton] at hsent
      exact hsent ▸ Conversion.sent_of_read hd hread

/-- A mark of progress is about no object, and neither is an error; so these give no item
that anything would have to be shown of. -/
theorem bookmarkStep_ne_item : bookmarkStep d ≠ .item event := by
  unfold bookmarkStep
  dsimp only
  split_ifs <;> simp

theorem errorStep_ne_item : errorStep d ≠ .item event := by
  unfold errorStep
  dsimp only
  split_ifs <;> simp

/-- Whatever a line of a watch is taken for, the objects that it is about are read from
it. -/
theorem sent_of_step (he : e.Distinct) (h : step e = .item event) :
    ∀ object ∈ event.documents, Sent object := by
  have hobject : ∀ d, e.get? "object" = some d → d.Distinct := by
    intro d hd
    rw [Document.get?_eq_at?, Document.at?_singleton] at hd
    exact he.child hd
  unfold step at h
  split at h
  · next d _ hd => exact sent_of_objectStep (hobject d hd) (fun _ => rfl) h
  · next d _ hd => exact sent_of_objectStep (hobject d hd) (fun _ => rfl) h
  · next d _ hd => exact sent_of_objectStep (hobject d hd) (fun _ => rfl) h
  · exact absurd h bookmarkStep_ne_item
  · exact absurd h errorStep_ne_item
  · cases h

/-- A watch is read line by line, up to the first one that ends it. -/
theorem sent_of_watchItems {es : List Document} (hes : ∀ e ∈ es, e.Distinct) :
    ∀ i ∈ (watchItems es).1, i.Sent := by
  induction es with
  | nil => exact fun i hi => absurd hi List.not_mem_nil
  | cons e es ih =>
    obtain ⟨he, hes⟩ := List.forall_mem_cons.mp hes
    unfold watchItems
    split
    · next event hstep => exact List.forall_mem_cons.mpr ⟨sent_of_step he hstep, ih hes⟩
    · exact ih hes
    · exact List.forall_mem_cons.mpr ⟨trivial, ih hes⟩
    · exact List.forall_mem_cons.mpr ⟨trivial, fun i hi => absurd hi List.not_mem_nil⟩

theorem sent_begin : (Phase.listing []).Sent :=
  fun _ hd => absurd hd List.not_mem_nil

/-- The objects of one answer are as they were sent. Pages of a list are collected until the
last one has come, so the invariant is about the phase as well. -/
theorem sent_of_take (hphase : phase.Sent) (hreply : reply.Distinct) :
    (∀ i ∈ (take phase reply).1, i.Sent) ∧ (take phase reply).2.Sent := by
  have hfailure : ∀ i ∈ [Item.failure], i.Sent := by
    intro i hi
    rw [List.mem_singleton.mp hi]
    trivial
  unfold take
  split
  · next objects items version next =>
    unfold takePage
    split
    · next page version next hpage _ _ =>
      have hobjects : ∀ d ∈ objects ++ page, Sent d := by
        intro d hd
        rcases List.mem_append.mp hd with hd | hd
        · exact hphase d hd
        · obtain ⟨a, ha, hread⟩ := mem_of_mapM hpage d hd
          exact Conversion.sent_of_read (hreply a ha) hread
      dsimp only
      split
      · exact ⟨fun i hi => absurd hi List.not_mem_nil, hobjects⟩
      · split
        · exact ⟨hfailure, sent_begin⟩
        · refine ⟨fun i hi => ?_, trivial⟩
          rw [List.mem_singleton.mp hi]
          exact hobjects
    · exact ⟨hfailure, sent_begin⟩
  · exact ⟨hfailure, sent_begin⟩
  · next es =>
    refine ⟨sent_of_watchItems hreply, ?_⟩
    dsimp only
    split
    · exact sent_begin
    · trivial
  · exact ⟨hfailure, trivial⟩

/-- The objects of a whole stream are as they were sent, by induction on the answers. -/
theorem sent_of_runFrom (hphase : phase.Sent) (hreplies : ∀ reply ∈ replies, reply.Distinct) :
    ∀ i ∈ runFrom phase replies, i.Sent := by
  induction replies generalizing phase with
  | nil => exact fun i hi => absurd hi List.not_mem_nil
  | cons reply replies ih =>
    obtain ⟨hreply, hreplies⟩ := List.forall_mem_cons.mp hreplies
    obtain ⟨hitems, hphase⟩ := sent_of_take hphase hreply
    intro i hi
    rcases List.mem_append.mp hi with hi | hi
    · exact hitems i hi
    · exact ih hphase hreplies i hi

/-- **What is told on a stream, item by item.** Nothing is added or left out, and each
object is told as the document that is kept of it. -/
theorem converts_run (r : Resource) (hreplies : ∀ reply ∈ replies, reply.Distinct) :
    List.Forall₂ (Item.Converts r) (runFrom (.listing []) replies) (run r replies) := by
  rw [run, List.forall₂_map_right_iff, List.forall₂_same]
  intro i hi
  have hsent := sent_of_runFrom sent_begin hreplies i hi
  cases i with
  | event e => exact .event (Conversion.converts_event hsent r)
  | failure => exact .failure

end ListWatch

end KindCache.ApiServer
