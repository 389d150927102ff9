import Accession.Proofs.Batch.Filing
set_option autoImplicit false

namespace Accession.Registry

open Json (Value Members)

theorem title_field : ∀ t ∈ standard.types,
    if t.isAgent then required "names" .nameList ∈ t.schema.fields ∧
      t.identifierField = none ∧ t.scope = .global
    else required "title" .string ∈ t.schema.fields := by decide

theorem ref_id_field : ∀ t ∈ standard.types, t.name = "archival_object" →
    t.identifierField = some "ref_id" ∧ optional "ref_id" .string ∈ t.schema.fields := by decide

theorem identifier_required : ∀ t ∈ standard.types,
    t.name ∈ ["classification", "classification_term"] →
    t.identifierField = some "identifier" ∧ required "identifier" .string ∈ t.schema.fields := by
  decide

def columnFields : List String := ["title", "names", "ref_id", "identifier"]

theorem columnFields_apart : ∀ t ∈ standard.types, ∀ name ∈ columnFields,
    t.schema.referenceFields.find? (fun field => field.name == name) = none := by decide

section Checks

variable {body : Members} {name : String}

theorem str_of_check {isRequired : Bool}
    (h : (⟨name, .string, isRequired⟩ : Field).check body = none) :
    (isRequired = false ∧ present? body name = none) ∨
      ∃ s, body.get? name = some (.str s) ∧ (isRequired = true → Text.blank s = false) := by
  rw [Field.check] at h
  cases hpresent : present? body name with
  | none =>
    rw [hpresent] at h
    dsimp only at h
    split at h
    · cases h
    · rename_i hoptional
      exact .inl ⟨by simpa using hoptional, rfl⟩
  | some v =>
    obtain ⟨hget, -⟩ := Option.filter_eq_some_iff.1 hpresent
    rw [hpresent] at h
    cases v with
    | str s =>
      refine .inr ⟨s, hget, ?_⟩
      rintro rfl
      simpa [Field.violation?] using h
    | null | bool | num | arr | obj => cases h

theorem str_of_required (h : (required name .string).check body = none) :
    ∃ s, body.get? name = some (.str s) ∧ Text.blank s = false := by
  obtain ⟨hoptional, -⟩ | ⟨s, hget, hblank⟩ := str_of_check h
  · cases hoptional
  · exact ⟨s, hget, hblank rfl⟩

theorem names_of_check (h : (required name .nameList).check body = none) :
    ∃ first rest s, body.get? name = some (.arr (first :: rest)) ∧
      first.member? "sort_name" = some (.str s) ∧ Text.blank s = false := by
  rw [required, Field.check] at h
  cases hpresent : present? body name with
  | none =>
    rw [hpresent] at h
    cases h
  | some v =>
    obtain ⟨hget, -⟩ := Option.filter_eq_some_iff.1 hpresent
    rw [hpresent] at h
    cases v with
    | arr items =>
      cases items with
      | nil => cases h
      | cons first rest =>
        have hfirst : hasSortName first = true := by
          by_contra hno
          simp [Field.violation?, firstRefused, hno] at h
        rw [hasSortName] at hfirst
        split at hfirst
        · rename_i s hs
          obtain ⟨v, hv, hstring⟩ := Option.bind_eq_some_iff.1 hs
          cases v with
          | str s' =>
            cases hstring
            exact ⟨first, rest, s, hget, hv, by simpa using hfirst⟩
          | null | bool | num | arr | obj => cases hstring
        · cases hfirst
    | null | bool | num | str | obj => cases h

end Checks

end Accession.Registry

namespace Accession.Batch

open Json (Value Members)
open Store (Database Row sameName)
open Registry (RecordType present? standard columnFields)

/-- The columns of a row are what the body of its text has in their place. -/
structure Agrees (db : Database) (t : RecordType) (row : Row) (body : Members) : Prop where
  type : body.get? "jsonmodel_type" = some (.str t.name)
  unnamed : body.get? "uri" = none ∧ body.get? "id" = none
  title :
    if t.isAgent then ∃ first rest, body.get? "names" = some (.arr (first :: rest)) ∧
      first.member? "sort_name" = some (.str row.title)
    else body.get? "title" = some (.str row.title)
  titled : Text.blank row.title = false
  refId : t.name = "archival_object" → row.identifier.map Value.str = present? body "ref_id"
  identifier : t.name ∈ ["classification", "classification_term"] →
    ∃ s, row.identifier = some s ∧ body.get? "identifier" = some (.str s) ∧ Text.blank s = false
  agent : t.isAgent = true → row.identifier = none ∧ row.repository = none
  owner : t.scope = .repository →
    ∃ repository, row.repository = some repository ∧ db.hasRepository repository = true

/-- Every row is in the table of a standard type, and its text reads as an object with which its
columns agree. -/
def Agreeing (db : Database) : Prop :=
  ∀ name, ∀ row ∈ db.rowsOf name, ∃ t ∈ standard.types, sameName t.table name = true ∧
    ∃ body, Json.parseObject (Text.Utf8.encode row.json) = .ok body ∧ Agrees db t row body

/-- Every row is what a record that was admitted became, and its repository is there. -/
def Described (db : Database) : Prop :=
  ∀ name, ∀ row ∈ db.rowsOf name, ∃ record, Admitted standard record ∧
    sameName record.type.table name = true ∧
    (∃ repository uris, row = record.row ⟨standard, repository⟩ uris row.id) ∧
    row.repository.all db.hasRepository = true

section Rows

variable {record : Record} (admitted : Admitted standard record) (uris : String → String)

include admitted

theorem Admitted.check {field : Registry.Field} (h : field ∈ record.type.schema.fields) :
    field.check record.body = none := by
  have hall := List.all_eq_true.1 admitted.valid field h
  exact Option.isNone_iff_eq_none.1 hall

theorem Admitted.get?_relinked {name : String} (h : name ∈ columnFields) :
    (record.relinked uris).get? name = record.body.get? name := by
  obtain ⟨hnames, -⟩ := Registry.field_names record.type admitted.registered
  rw [Record.relinked, Registry.get?_relinkAll hnames,
    Registry.columnFields_apart record.type admitted.registered name h]

theorem Admitted.bounded : record.body.Bounded Value.Legible := by
  obtain ⟨piece, hparsed⟩ := admitted.parsed
  exact .of_parseObject hparsed

theorem Admitted.distinct_relinked : (record.relinked uris).Distinct :=
  (bounded_relinkAll uris Json.hereditary_legible _ admitted.bounded).distinct

theorem Admitted.get?_reread {name : String} (h : name ∈ columnFields) :
    Members.get? (Json.rereadMembers (storedBody record.type (record.relinked uris))) name
      = (record.body.get? name).map Value.reread := by
  have hstored : ∀ name ∈ columnFields, name ∉ ["uri", "id", "jsonmodel_type"] := by decide
  rw [Json.get?_rereadMembers,
    get?_storedBody (admitted.distinct_relinked uris) (hstored name h),
    admitted.get?_relinked uris h]

theorem Admitted.title (repository id : Int) {read : Members}
    (hread : read = Json.rereadMembers (storedBody record.type (record.relinked uris))) :
    (if record.type.isAgent then ∃ first rest, read.get? "names" = some (.arr (first :: rest)) ∧
      first.member? "sort_name" = some (.str (record.row ⟨standard, repository⟩ uris id).title)
    else read.get? "title" = some (.str (record.row ⟨standard, repository⟩ uris id).title)) ∧
      Text.blank (record.row ⟨standard, repository⟩ uris id).title = false := by
  have htitle : (record.row ⟨standard, repository⟩ uris id).title
      = titleOf record.type (record.relinked uris) := rfl
  have hfield := Registry.title_field record.type admitted.registered
  subst hread
  rw [htitle, titleOf]
  split at hfield
  · rename_i hagent
    obtain ⟨first, rest, s, hnames, hsort, hblank⟩ :=
      Registry.names_of_check (admitted.check hfield.1)
    have hname : (first.reread).member? "sort_name" = some (.str s) := by
      rw [Json.member?_reread, hsort]
      rfl
    rw [if_pos hagent, if_pos hagent, admitted.get?_relinked uris (by decide),
      admitted.get?_reread uris (by decide), hnames]
    refine ⟨⟨first.reread, rest.map Value.reread, ?_, ?_⟩, ?_⟩
    · rw [Option.map_some, Value.reread, Json.rereadItems_eq_map, List.map_cons]
    · simp [Value.asArray?, hsort, Value.asString?, hname]
    · simpa [Value.asArray?, hsort, Value.asString?] using hblank
  · rename_i hagent
    obtain ⟨s, htext, hblank⟩ := Registry.str_of_required (admitted.check hfield)
    rw [if_neg hagent, if_neg hagent, admitted.get?_relinked uris (by decide),
      admitted.get?_reread uris (by decide), htext]
    exact ⟨rfl, hblank⟩

theorem Admitted.identifier {field : String} (hfield : record.type.identifierField = some field)
    (hcolumn : field ∈ columnFields) (repository id : Int) :
    (record.row ⟨standard, repository⟩ uris id).identifier
      = (record.body.get? field).bind Value.asString? := by
  change identifierOf record.type (record.relinked uris) = _
  rw [identifierOf, hfield]
  change ((record.relinked uris).get? field).bind Value.asString? = _
  rw [admitted.get?_relinked uris hcolumn]

theorem Admitted.agrees {db : Database} {row : Row} {repository : Int}
    (hrow : row = record.row ⟨standard, repository⟩ uris row.id)
    (owned : row.repository.all db.hasRepository = true) :
    ∃ body, Json.parseObject (Text.Utf8.encode row.json) = .ok body ∧
      Agrees db record.type row body := by
  have hstored := bounded_stored uris Json.hereditary_legible admitted.bounded
  have hjson : row.json = (storedBody record.type (record.relinked uris)).render := by
    rw [hrow]
    rfl
  have hrepository : row.repository = repositoryOf ⟨standard, repository⟩ record.type := by
    rw [hrow]
    rfl
  -- the text is read again, so its numbers may differ from those of the record
  have hread := hstored.parseObject_render
  rw [← hjson] at hread
  have htitle := admitted.title uris repository row.id rfl
  rw [← hrow] at htitle
  have hidentifier : ∀ field, record.type.identifierField = some field → field ∈ columnFields →
      row.identifier = (record.body.get? field).bind Value.asString? := by
    intro field hfield hcolumn
    rw [hrow]
    exact admitted.identifier uris hfield hcolumn repository row.id
  refine ⟨_, hread, ?_, ?_, htitle.1, htitle.2, ?_, ?_, ?_, ?_⟩
  · rw [Json.get?_rereadMembers, get?_storedBody_own (admitted.distinct_relinked uris) (by decide)]
    rfl
  · rw [Json.get?_rereadMembers, Json.get?_rereadMembers,
      get?_storedBody_own (admitted.distinct_relinked uris) (by decide),
      get?_storedBody_own (admitted.distinct_relinked uris) (by decide)]
    exact ⟨rfl, rfl⟩
  · intro hname
    obtain ⟨hfield, hmem⟩ := Registry.ref_id_field record.type admitted.registered hname
    rw [hidentifier "ref_id" hfield (by decide), present?, admitted.get?_reread uris (by decide)]
    obtain ⟨-, habsent⟩ | ⟨s, hget, -⟩ := Registry.str_of_check (admitted.check hmem)
    · rw [present?] at habsent
      cases hget : record.body.get? "ref_id" with
      | none => rfl
      | some v =>
        rw [hget] at habsent
        cases v with
        | null => rfl
        | bool | num | str | arr | obj => cases habsent
    · rw [hget]
      rfl
  · intro hname
    obtain ⟨hfield, hmem⟩ := Registry.identifier_required record.type admitted.registered hname
    obtain ⟨s, hget, hblank⟩ := Registry.str_of_required (admitted.check hmem)
    refine ⟨s, ?_, ?_, hblank⟩
    · rw [hidentifier "identifier" hfield (by decide), hget]
      rfl
    · rw [admitted.get?_reread uris (by decide), hget]
      rfl
  · intro hagent
    have hfield := Registry.title_field record.type admitted.registered
    rw [if_pos hagent] at hfield
    obtain ⟨-, hnone, hscope⟩ := hfield
    rw [hrepository, repositoryOf, hscope, hrow]
    refine ⟨?_, rfl⟩
    change identifierOf record.type (record.relinked uris) = none
    rw [identifierOf, hnone]
    rfl
  · intro hscope
    rw [repositoryOf, hscope] at hrepository
    rw [hrepository] at owned
    exact ⟨repository, hrepository, owned⟩

end Rows

theorem Described.agreeing {db : Database} (described : Described db) : Agreeing db := by
  intro name row hrow
  obtain ⟨record, admitted, htable, ⟨repository, uris, hmade⟩, howned⟩ := described name row hrow
  exact ⟨record.type, admitted.registered, htable, admitted.agrees uris hmade howned⟩

section Keeping

theorem described_createRepository (db : Database) (code name : String) (id : Int)
    (db' : Database) (described : Described db)
    (created : db.createRepository code name = .ok (id, db')) : Described db' := by
  intro table row hrow
  rw [Database.rowsOf_createRepository created] at hrow
  obtain ⟨record, admitted, htable, hmade, howned⟩ := described table row hrow
  refine ⟨record, admitted, htable, hmade, ?_⟩
  obtain ⟨rs, hrs, -, -, -, rfl⟩ := Database.createRepository_ok created
  rw [Option.all_eq_true] at howned ⊢
  intro repository hrepository
  have hold := howned repository hrepository
  rw [Database.hasRepository, hrs] at hold
  rw [Database.hasRepository]
  simp only [Option.any_some, Store.Repositories.contains, Store.Repositories.push,
    List.any_append] at hold ⊢
  rw [hold, Bool.true_or]

theorem described_stores {repository : Int} {created : Created} {c : Store.Connection}
    {record : Record} {persisted : Persisted} {db : Database} (admitted : Admitted standard record)
    (described : Described c.database)
    (stores : Stores ⟨standard, repository⟩ created c record persisted db) : Described db := by
  obtain ⟨hinsert, -⟩ := stores.inserted admitted.registered
  have hsame : db.hasRepository = c.database.hasRepository := by
    funext r
    rw [Database.hasRepository, Database.repositories_insert hinsert]
    rfl
  intro name row hrow
  rw [hsame]
  obtain hold | ⟨htable, rfl⟩ := (Database.mem_rowsOf_insert hinsert).1 hrow
  · exact described name row hold
  · obtain ⟨t, -, -, -, -, howned, -⟩ := Database.insert_ok hinsert
    exact ⟨record, admitted, htable, ⟨repository, uriOf created, rfl⟩, howned⟩

theorem described_batch (i : Import) (db : Database) (described : Described db) :
    Described (i.database standard db) :=
  (i.keeps standard db (P := fun _ db => Described db) described
    (fun _ admitted _ _ _ _ _ _ described stores => described_stores admitted described stores)).1

end Keeping

/-- From a database without records, whatever repositories are created and whatever is sent to be
stored in whatever mode, and whatever calls of the storage fail: the text of every row reads as an
object, and the columns of the row agree with it. -/
theorem columns_agree (db : Database) (empty : ∀ t ∈ db.tables, t.rows = [])
    (events : List Event) : Agreeing (after standard db events) := by
  have hstart : Described db := by
    intro name row hrow
    rw [Database.rowsOf_of_empty empty] at hrow
    cases hrow
  exact (after_keeps described_createRepository described_batch hstart events).agreeing

def collection : Import where
  repository := 1
  body := Text.Utf8.encode
    ("\x7b\"id\":\"c\",\"jsonmodel_type\":\"classification\",\"identifier\":\"K\",\"title\":\"T\"\x7d"
      ++ "\x7b\"id\":\"a\",\"jsonmodel_type\":\"agent_person\",\"names\":[\x7b\"sort_name\":\"N\"\x7d]\x7d"
      ++ "\x7b\"id\":\"p\",\"title\":\"P\",\"ref_id\":null,\"notes\":[0.1]\x7d")

theorem columns_agree_collection :
    (∀ t ∈ shelves.tables, t.rows = []) ∧
      Agreeing (after standard shelves [.repository "main" "Main", .batch collection]) ∧
      ["classifications", "agent_person", "archival_objects"].map (fun name =>
        ((after standard shelves [.repository "main" "Main", .batch collection]).rowsOf name).map
          (fun row => (row.repository, row.title, row.identifier)))
        = [[(some 1, "T", some "K")], [(none, "N", none)], [(some 1, "P", none)]] := by
  have empty : ∀ t ∈ shelves.tables, t.rows = [] := by decide +kernel
  exact ⟨empty, columns_agree shelves empty _, by decide +kernel⟩

end Accession.Batch
