import Wikijump.Deepwell.Query
import Mathlib.Data.String.Basic

/-!
# The writers of `FileRevisionService`

Transcription of the five calls that write to `file_revision`:

* `create` — `next_revision_number`'s assertions, change detection over the tri-state body
  (`mergeBody`), the no-op return, the three checks on the merged snapshot (`validate`), the
  outdater, the insert;
* `createFirst`, `createTombstone`, `createResurrection` — outdater, then insert;
* `update` — `get_latest` of the requested `(site, page, file)`, the `CannotHideLatestRevision`
  guard, then an `UPDATE` of `hidden` by `revision_id` alone.

Each insert goes through `insert` with the row the call builds (`updateRow`, `firstRow`,
`tombstoneRow`, `resurrectionRow`).  The `*_cases` theorems list every outcome of a call, with
what it leaves in the table; the later modules use them and never unfold a writer.
-/

set_option autoImplicit false

namespace Deepwell

def ALL_CHANGES : List String := ["page", "name", "blob", "mime", "licensing"]

/-- `next_revision_number`.  `.error msg` is a panic of one of its `assert_eq!`s. -/
def nextRevisionNumber (previous : FileRevision) (pageId fileId : Int) : Except String Int :=
  if previous.fileId ≠ fileId then .error "Previous revision has an inconsistent file ID"
  else if previous.pageId ≠ pageId then .error "Previous revision has an inconsistent page ID"
  else .ok (wrappingAdd previous.revisionNumber 1)

theorem nextRevisionNumber_eq_ok {previous : FileRevision} {pageId fileId n : Int} :
    nextRevisionNumber previous pageId fileId = .ok n ↔
      previous.fileId = fileId ∧ previous.pageId = pageId ∧
        n = wrappingAdd previous.revisionNumber 1 := by
  unfold nextRevisionNumber
  split_ifs <;> simp_all [eq_comm]

/-- `next_revision_number` in a build with overflow checks: `previous.revision_number + 1` panics
past `i32::MAX` ("attempt to add with overflow"), where the release build wraps. -/
def nextRevisionNumberChecked (previous : FileRevision) (pageId fileId : Int) :
    Except String Int :=
  if previous.fileId ≠ fileId then .error "Previous revision has an inconsistent file ID"
  else if previous.pageId ≠ pageId then .error "Previous revision has an inconsistent page ID"
  else if I32_MAX < previous.revisionNumber + 1 then .error "attempt to add with overflow"
  else .ok (previous.revisionNumber + 1)

theorem nextRevisionNumberChecked_eq_ok {previous : FileRevision} {pageId fileId : Int}
    (hf : previous.fileId = fileId) (hp : previous.pageId = pageId)
    (hlt : previous.revisionNumber < I32_MAX) :
    nextRevisionNumberChecked previous pageId fileId = .ok (previous.revisionNumber + 1) := by
  simp only [nextRevisionNumberChecked, hf, hp, ne_eq, not_true_eq_false, if_false]
  rw [if_neg (by omega)]

def getPageSlug (b : Backend) (siteId pageId : Int) : Service String :=
  Service.ofExcept ((b.getPage siteId pageId).mapError .external)

/-- A call of `OutdateService`: it is made, then succeeds or fails as the backend says. -/
def runOutdater (b : Backend) (call : Outdate) : Service Unit := fun st =>
  .done ((b.outdate call).mapError .external) { st with outdated := st.outdated ++ [call] }

def processPageEdit (b : Backend) (siteId pageId : Int) (slug : String) (depth : Nat) :
    Service Unit :=
  runOutdater b ⟨.edit, siteId, pageId, slug, depth⟩

def processPageDisplace (b : Backend) (siteId pageId : Int) (slug : String) (depth : Nat) :
    Service Unit :=
  runOutdater b ⟨.displace, siteId, pageId, slug, depth⟩

/-- `ActiveModel::insert`.  `..Default::default()` leaves `revision_id` unset and the database
assigns the next value of its serial key.  The model takes the row count plus one: distinct, as
the key's values are, where a database sequence may also skip values after a failed insert; no
result here depends on the ids being dense. -/
def insert (b : Backend) (model : FileRevision) : Service FileRevision := fun st =>
  let row := { model with revisionId := st.rows.length + 1 }
  match b.write row with
  | .error e => .done (.error (.external e)) st
  | .ok () => .done (.ok row) { st with rows := st.rows ++ [row] }

/-- The collaborators a writer asks on its way to the insert, in order: `PageService::get` for the
slug, the `OutdateService` call of `kind` with that slug, the database's write of `row`.  The
writer inserts `row` when all three accept, and otherwise returns the first refusal. -/
def Backend.chain (b : Backend) (kind : OutdateKind) (siteId pageId : Int) (row : FileRevision) :
    Except ExternalError String := do
  let slug ← b.getPage siteId pageId
  b.outdate ⟨kind, siteId, pageId, slug, 0⟩
  b.write row
  pure slug

theorem Backend.chain_eq_ok {b : Backend} {kind : OutdateKind} {siteId pageId : Int}
    {row : FileRevision} {slug : String} :
    b.chain kind siteId pageId row = .ok slug ↔ b.getPage siteId pageId = .ok slug ∧
      b.outdate ⟨kind, siteId, pageId, slug, 0⟩ = .ok () ∧ b.write row = .ok () := by
  rcases hg : b.getPage siteId pageId with e | s
  · simp [Backend.chain, hg, bind, Except.bind]
  -- each later collaborator accepts or refuses; the slug passed on is the one read
  rcases ho : b.outdate ⟨kind, siteId, pageId, s, 0⟩ with e | ⟨⟩ <;>
    rcases hw : b.write row with e' | ⟨⟩ <;>
    simp [Backend.chain, hg, ho, hw, bind, Except.bind, pure, Except.pure] <;>
    rintro rfl <;> simp [ho]

/-! ## Change detection -/

def changeTag {α : Type} [DecidableEq α] (tag : String) (old new : α) : List String :=
  if old ≠ new then [tag] else []

/-- One `if let ProvidedValue::Set(new) = … { if old != new { changes.push(tag); old = new } }`
block of `create`: the tags it pushes and the value the field keeps. -/
def provide {α : Type} [DecidableEq α] (tag : String) (old : α) : ProvidedValue α → List String × α
  | .set new => if old ≠ new then ([tag], new) else ([], old)
  | .unset => ([], old)

structure Snapshot where
  pageId : Int
  name : String
  blob : FileBlob
  licensing : Licensing
  deriving DecidableEq, Repr

/-- The change detection of `create` (lines 71–116): the merged snapshot, and the tags of the
groups that changed in the order the blocks run.  The blob group compares hash, size and MIME
type at once (`FileBlob` equality). -/
def mergeBody (pageId : Int) (previous : FileRevision) (body : CreateFileRevisionBody) :
    Snapshot × List String :=
  let (page, pageId) := provide "page" pageId body.pageId
  let (name, newName) := provide "name" previous.name body.name
  let (blob, newBlob) := provide "blob" previous.blob body.blob
  let (licensing, newLicensing) := provide "licensing" previous.licensing body.licensing
  (⟨pageId, newName, newBlob, newLicensing⟩, page ++ name ++ blob ++ licensing)

/-- The checks of `create` on the merged snapshot (lines 124–138), in order. -/
def validate (m : Snapshot) : Except Error Unit :=
  if m.name.isEmpty then .error .fileNameEmpty
  else if 256 ≤ m.name.utf8ByteSize then .error .fileNameTooLong
  else if m.blob.mimeHint.isEmpty then .error .fileMimeEmpty
  else .ok ()

/-- The checks of `create` as a property of a name and a MIME type: a name of 1 to 255 bytes, a
non-empty MIME type. -/
def ValidSnapshot (name mimeHint : String) : Prop :=
  name ≠ "" ∧ name.utf8ByteSize < 256 ∧ mimeHint ≠ ""

instance (name mimeHint : String) : Decidable (ValidSnapshot name mimeHint) :=
  inferInstanceAs (Decidable (_ ∧ _ ∧ _))

theorem validate_eq_ok {m : Snapshot} : validate m = .ok () ↔ ValidSnapshot m.name m.blob.mimeHint := by
  unfold validate ValidSnapshot
  split_ifs <;> simp_all [String.isEmpty_iff]

/-- **`validate` reports the first check that fails**, in the order of the source. -/
theorem validate_eq_error {m : Snapshot} {e : Error} :
    validate m = .error e ↔
      (e = .fileNameEmpty ∧ m.name = "") ∨
      (e = .fileNameTooLong ∧ m.name ≠ "" ∧ 256 ≤ m.name.utf8ByteSize) ∨
      (e = .fileMimeEmpty ∧ m.name ≠ "" ∧ m.name.utf8ByteSize < 256 ∧ m.blob.mimeHint = "") := by
  unfold validate
  constructor
  · intro h
    split_ifs at h with h1 h2 h3 <;> cases h <;> simp_all [String.isEmpty_iff]
  · rintro (⟨rfl, h1⟩ | ⟨rfl, h1, h2⟩ | ⟨rfl, h1, h2, h3⟩)
    · simp [String.isEmpty_iff, h1]
    · simp [String.isEmpty_iff, h1, h2]
    · simp [String.isEmpty_iff, h1, Nat.not_le.2 h2, h3]

/-! ## The writers -/

/-- The row `create` inserts (lines 147–163): `revision_number` is `Set(0)`. -/
def updateRow (input : CreateFileRevision) (m : Snapshot) (changes : List String) : FileRevision :=
  { revisionId := 0, revisionType := .update, revisionNumber := 0, fileId := input.fileId,
    pageId := m.pageId, siteId := input.siteId, userId := input.userId, name := m.name,
    s3Hash := m.blob.s3Hash, sizeHint := m.blob.sizeHint, mimeHint := m.blob.mimeHint,
    licensing := m.licensing, changes := changes, comments := input.comments, hidden := [] }

def create (b : Backend) (input : CreateFileRevision) (previous : FileRevision) :
    Service (Option CreateFileRevisionOutput) := do
  let revisionNumber ← Service.ofPanic (nextRevisionNumber previous input.pageId input.fileId)
  let (m, changes) := mergeBody input.pageId previous input.body
  if changes.isEmpty then
    pure none
  else do
    Service.ofExcept (validate m)
    let pageSlug ← getPageSlug b input.siteId m.pageId
    processPageEdit b input.siteId m.pageId pageSlug 0
    let row ← insert b (updateRow input m changes)
    pure (some ⟨row.revisionId, revisionNumber⟩)

/-- The row `create_first` inserts (lines 201–217): `revision_number` is `Set(0)`. -/
def firstRow (input : CreateFirstFileRevision) : FileRevision :=
  { revisionId := 0, revisionType := .create, revisionNumber := 0, fileId := input.fileId,
    pageId := input.pageId, siteId := input.siteId, userId := input.userId, name := input.name,
    s3Hash := input.s3Hash, sizeHint := input.sizeHint, mimeHint := input.mimeHint,
    licensing := input.licensing, changes := ALL_CHANGES, comments := input.comments,
    hidden := [] }

def createFirst (b : Backend) (input : CreateFirstFileRevision) :
    Service CreateFirstFileRevisionOutput := do
  let pageSlug ← getPageSlug b input.siteId input.pageId
  processPageDisplace b input.siteId input.pageId pageSlug 0
  let row ← insert b (firstRow input)
  pure ⟨input.fileId, row.revisionId⟩

/-- The row `create_tombstone` inserts (lines 263–279): `previous`'s snapshot, no changes. -/
def tombstoneRow (input : CreateTombstoneFileRevision) (revisionNumber : Int)
    (previous : FileRevision) : FileRevision :=
  { revisionId := 0, revisionType := .delete, revisionNumber := revisionNumber,
    fileId := input.fileId, pageId := input.pageId, siteId := input.siteId,
    userId := input.userId, name := previous.name, s3Hash := previous.s3Hash,
    sizeHint := previous.sizeHint, mimeHint := previous.mimeHint,
    licensing := previous.licensing, changes := [], comments := input.comments, hidden := [] }

def createTombstone (b : Backend) (input : CreateTombstoneFileRevision)
    (previous : FileRevision) : Service CreateFileRevisionOutput := do
  let revisionNumber ← Service.ofPanic (nextRevisionNumber previous input.pageId input.fileId)
  let pageSlug ← getPageSlug b input.siteId input.pageId
  processPageEdit b input.siteId input.pageId pageSlug 0
  let row ← insert b (tombstoneRow input revisionNumber previous)
  pure ⟨row.revisionId, revisionNumber⟩

/-- The changes of a resurrection (lines 330–342): page and name only. -/
def resurrectionChanges (oldPageId newPageId : Int) (oldName newName : String) : List String :=
  changeTag "page" oldPageId newPageId ++ changeTag "name" oldName newName

/-- The row `create_resurrection` inserts (lines 350–366): the new page and name, the rest of
`previous`'s snapshot. -/
def resurrectionRow (input : CreateResurrectionFileRevision) (revisionNumber : Int)
    (previous : FileRevision) : FileRevision :=
  { revisionId := 0, revisionType := .undelete, revisionNumber := revisionNumber,
    fileId := input.fileId, pageId := input.newPageId, siteId := input.siteId,
    userId := input.userId, name := input.newName, s3Hash := previous.s3Hash,
    sizeHint := previous.sizeHint, mimeHint := previous.mimeHint,
    licensing := previous.licensing,
    changes := resurrectionChanges input.pageId input.newPageId previous.name input.newName,
    comments := input.comments, hidden := [] }

def createResurrection (b : Backend) (input : CreateResurrectionFileRevision)
    (previous : FileRevision) : Service CreateFileRevisionOutput := do
  let revisionNumber ← Service.ofPanic (nextRevisionNumber previous input.pageId input.fileId)
  let newPageSlug ← getPageSlug b input.siteId input.newPageId
  processPageEdit b input.siteId input.newPageId newPageSlug 0
  let row ← insert b (resurrectionRow input revisionNumber previous)
  pure ⟨row.revisionId, revisionNumber⟩

/-- `ActiveModel::update` of `{ revision_id: Set(id), hidden: Set(hidden), .. }`: the row with
that key gets the new `hidden` and nothing else changes; no such row is a database error. -/
def updateHidden (b : Backend) (revisionId : Int) (hidden : List String) :
    Service FileRevision := fun st =>
  match st.rows.find? (fun r => r.revisionId == revisionId) with
  | none => .done (.error (.external .database)) st
  | some row =>
    match b.write { row with hidden := hidden } with
    | .error e => .done (.error (.external e)) st
    | .ok () =>
      .done (.ok { row with hidden := hidden })
        { st with rows := st.rows.map fun r =>
            if r.revisionId = revisionId then { r with hidden := hidden } else r }

def update (b : Backend) (input : UpdateFileRevision) : Service FileRevision := do
  let latest ← getLatest input.siteId input.pageId input.fileId
  if input.revisionId = latest.revisionId then
    Service.fail .cannotHideLatestRevision
  else
    updateHidden b input.revisionId input.hidden

/-! ## Outcomes of the writers -/

def FileRevision.withId (r : FileRevision) (n : Nat) : FileRevision := { r with revisionId := n + 1 }

/-- **Every outcome of `create`**: the assertion panics; or the body changes nothing and the call
is a no-op; or a check on the merged snapshot fails; or a collaborator fails and the table is kept;
or the updated row is appended and the outdater has run once, on the merged page. -/
theorem create_cases (b : Backend) (input : CreateFileRevision) (previous : FileRevision)
    (st : State) {m : Snapshot} {changes : List String}
    (hm : mergeBody input.pageId previous input.body = (m, changes)) :
    (∃ msg, nextRevisionNumber previous input.pageId input.fileId = .error msg ∧
      create b input previous st = .panic msg st) ∨
    (previous.fileId = input.fileId ∧ previous.pageId = input.pageId ∧
      ((changes = [] ∧ create b input previous st = .done (.ok none) st) ∨
      (changes ≠ [] ∧ ∃ e,
          validate m = .error e ∧ create b input previous st = .done (.error e) st) ∨
      (changes ≠ [] ∧ validate m = .ok () ∧
        ∃ (e : ExternalError) (st' : State),
            create b input previous st = .done (.error (.external e)) st' ∧
          st'.rows = st.rows ∧ st.outdated <+: st'.outdated ∧
          b.chain .edit input.siteId m.pageId ((updateRow input m changes).withId st.rows.length) =
            .error e) ∨
      (changes ≠ [] ∧ validate m = .ok () ∧ ∃ slug, b.chain .edit input.siteId m.pageId
          ((updateRow input m changes).withId st.rows.length) = .ok slug ∧
        create b input previous st =
          .done (.ok (some ⟨st.rows.length + 1, wrappingAdd previous.revisionNumber 1⟩))
            ⟨st.rows ++ [(updateRow input m changes).withId st.rows.length],
              st.outdated ++ [⟨.edit, input.siteId, m.pageId, slug, 0⟩]⟩))) := by
  rcases hn : nextRevisionNumber previous input.pageId input.fileId with msg | n
  · exact .inl ⟨msg, rfl, by simp only [create, hn, List.isEmpty_eq_true, Service.bind_apply,
      Service.ofPanic_error]⟩
  obtain ⟨hf, hp, rfl⟩ := nextRevisionNumber_eq_ok.1 hn
  refine .inr ⟨hf, hp, ?_⟩
  by_cases hc : changes = []
  · exact .inl ⟨hc, by simp only [create, hn, hm, hc, List.isEmpty_nil, ↓reduceIte,
      Service.bind_apply, Service.ofPanic_ok, Service.pure_apply]⟩
  have hc' : changes.isEmpty = false := by simpa using hc
  rcases hv : validate m with e | ⟨⟩
  · exact .inr (.inl ⟨hc, e, rfl, by simp only [create, hn, hm, hc', Bool.false_eq_true,
      ↓reduceIte, hv, Service.bind_apply, Service.ofPanic_ok, Service.ofExcept_apply]⟩)
  refine .inr (.inr ?_)
  rcases hg : b.getPage input.siteId m.pageId with e | slug
  · exact .inl ⟨hc, rfl, e, st, by
      simp only [create, hn, hm, hc', Bool.false_eq_true, ↓reduceIte, hv, getPageSlug,
          Except.mapError, hg, Service.bind_apply, Service.ofPanic_ok, Service.ofExcept_apply],
          rfl, by simp, by simp [Backend.chain, hg, bind, Except.bind]⟩
  rcases ho : b.outdate ⟨.edit, input.siteId, m.pageId, slug, 0⟩ with e | ⟨⟩
  · exact .inl ⟨hc, rfl, e, { st with outdated := st.outdated ++ [⟨.edit, input.siteId, m.pageId,
      slug, 0⟩] }, by simp only [create, hn, hm, hc', Bool.false_eq_true, ↓reduceIte, hv,
          getPageSlug, Except.mapError, hg, processPageEdit, Service.bind_apply,
          Service.ofPanic_ok, Service.ofExcept_apply, runOutdater, ho], rfl, by simp,
          by simp [Backend.chain, hg, ho, bind, Except.bind]⟩
  rcases hw : b.write ((updateRow input m changes).withId st.rows.length) with e | ⟨⟩
  · exact .inl ⟨hc, rfl, e, { st with outdated := st.outdated ++ [⟨.edit, input.siteId, m.pageId,
      slug, 0⟩] }, by simp_all only [List.isEmpty_eq_false, ne_eq, not_false_eq_true,
          FileRevision.withId, create, List.isEmpty_eq_true, getPageSlug, Except.mapError,
          processPageEdit, ite_false, Service.bind_apply, Service.ofPanic_ok,
          Service.ofExcept_apply, runOutdater, insert], rfl, by simp,
          by simp [Backend.chain, hg, ho, hw, bind, Except.bind]⟩
  · exact .inr ⟨hc, rfl, slug, Backend.chain_eq_ok.2 ⟨hg, ho, hw⟩, by simp_all only [List.isEmpty_eq_false, ne_eq,
      not_false_eq_true, FileRevision.withId, create, List.isEmpty_eq_true, getPageSlug,
      Except.mapError, processPageEdit, ite_false, Service.bind_apply, Service.ofPanic_ok,
      Service.ofExcept_apply, runOutdater, insert, Service.pure_apply]⟩

/-- **Every outcome of `create_first`**: a collaborator fails and the table is kept, or the first
row is appended after one `process_page_displace` on its page. -/
theorem createFirst_cases (b : Backend) (input : CreateFirstFileRevision) (st : State) :
    (∃ (e : ExternalError) (st' : State),
        createFirst b input st = .done (.error (.external e)) st' ∧
      st'.rows = st.rows ∧ st.outdated <+: st'.outdated ∧
      b.chain .displace input.siteId input.pageId ((firstRow input).withId st.rows.length) =
        .error e) ∨
    (∃ slug, b.chain .displace input.siteId input.pageId
        ((firstRow input).withId st.rows.length) = .ok slug ∧
      createFirst b input st = .done (.ok ⟨input.fileId, st.rows.length + 1⟩)
        ⟨st.rows ++ [(firstRow input).withId st.rows.length],
          st.outdated ++ [⟨.displace, input.siteId, input.pageId, slug, 0⟩]⟩) := by
  rcases hg : b.getPage input.siteId input.pageId with e | slug
  · exact .inl ⟨e, st, by simp only [createFirst, getPageSlug, Except.mapError, hg,
      Service.bind_apply, Service.ofExcept_apply], rfl, by simp,
      by simp [Backend.chain, hg, bind, Except.bind]⟩
  rcases ho : b.outdate ⟨.displace, input.siteId, input.pageId, slug, 0⟩ with e | ⟨⟩
  · exact .inl ⟨e, { st with outdated := st.outdated ++ [⟨.displace, input.siteId, input.pageId,
      slug, 0⟩] }, by simp only [createFirst, getPageSlug, Except.mapError, hg,
          processPageDisplace, Service.bind_apply, Service.ofExcept_apply, runOutdater, ho], rfl,
          by simp, by simp [Backend.chain, hg, ho, bind, Except.bind]⟩
  rcases hw : b.write ((firstRow input).withId st.rows.length) with e | ⟨⟩
  · exact .inl ⟨e, { st with outdated := st.outdated ++ [⟨.displace, input.siteId, input.pageId,
      slug, 0⟩] }, by simp_all only [FileRevision.withId, createFirst, getPageSlug,
          Except.mapError, processPageDisplace, Service.bind_apply, Service.ofExcept_apply,
          runOutdater, insert], rfl, by simp, by simp [Backend.chain, hg, ho, hw, bind, Except.bind]⟩
  · exact .inr ⟨slug, Backend.chain_eq_ok.2 ⟨hg, ho, hw⟩, by simp_all only [FileRevision.withId, createFirst, getPageSlug,
      Except.mapError, processPageDisplace, Service.bind_apply, Service.ofExcept_apply,
      runOutdater, insert, Service.pure_apply]⟩

/-- **Every outcome of `create_tombstone`**: the assertion panics; or a collaborator fails and the
table is kept; or the tombstone, numbered `previous.revision_number + 1`, is appended after one
`process_page_edit` on its page. -/
theorem createTombstone_cases (b : Backend) (input : CreateTombstoneFileRevision)
    (previous : FileRevision) (st : State) :
    (∃ msg, nextRevisionNumber previous input.pageId input.fileId = .error msg ∧
      createTombstone b input previous st = .panic msg st) ∨
    (∃ (e : ExternalError) (st' : State),
        createTombstone b input previous st = .done (.error (.external e)) st' ∧
      st'.rows = st.rows ∧ st.outdated <+: st'.outdated ∧
      b.chain .edit input.siteId input.pageId ((tombstoneRow input
        (wrappingAdd previous.revisionNumber 1) previous).withId st.rows.length) = .error e) ∨
    (previous.fileId = input.fileId ∧ previous.pageId = input.pageId ∧
      ∃ slug, b.chain .edit input.siteId input.pageId ((tombstoneRow input
        (wrappingAdd previous.revisionNumber 1) previous).withId st.rows.length) = .ok slug ∧
      createTombstone b input previous st =
        .done (.ok ⟨st.rows.length + 1, wrappingAdd previous.revisionNumber 1⟩)
          ⟨st.rows ++ [(tombstoneRow input (wrappingAdd previous.revisionNumber 1)
              previous).withId st.rows.length],
            st.outdated ++ [⟨.edit, input.siteId, input.pageId, slug, 0⟩]⟩) := by
  rcases hn : nextRevisionNumber previous input.pageId input.fileId with msg | n
  · exact .inl ⟨msg, rfl, by simp only [createTombstone, hn, Service.bind_apply,
      Service.ofPanic_error]⟩
  obtain ⟨hf, hp, rfl⟩ := nextRevisionNumber_eq_ok.1 hn
  rcases hg : b.getPage input.siteId input.pageId with e | slug
  · exact .inr (.inl ⟨e, st, by
      simp only [createTombstone, hn, getPageSlug, Except.mapError, hg, Service.bind_apply,
          Service.ofPanic_ok, Service.ofExcept_apply], rfl, by simp,
      by simp [Backend.chain, hg, bind, Except.bind]⟩)
  rcases ho : b.outdate ⟨.edit, input.siteId, input.pageId, slug, 0⟩ with e | ⟨⟩
  · exact .inr (.inl ⟨e, { st with outdated := st.outdated ++ [⟨.edit, input.siteId, input.pageId,
      slug, 0⟩] }, by simp only [createTombstone, hn, getPageSlug, Except.mapError, hg,
          processPageEdit, Service.bind_apply, Service.ofPanic_ok, Service.ofExcept_apply,
          runOutdater, ho], rfl, by simp, by simp [Backend.chain, hg, ho, bind, Except.bind]⟩)
  rcases hw : b.write ((tombstoneRow input (wrappingAdd previous.revisionNumber 1)
      previous).withId st.rows.length) with e | ⟨⟩
  · exact .inr (.inl ⟨e, { st with outdated := st.outdated ++ [⟨.edit, input.siteId, input.pageId,
      slug, 0⟩] }, by simp_all only [FileRevision.withId, createTombstone, getPageSlug,
          Except.mapError, processPageEdit, Service.bind_apply, Service.ofPanic_ok,
          Service.ofExcept_apply, runOutdater, insert], rfl, by simp,
          by simp [Backend.chain, hg, ho, hw, bind, Except.bind]⟩)
  · exact .inr (.inr ⟨hf, hp, slug, Backend.chain_eq_ok.2 ⟨hg, ho, hw⟩, by simp_all only [FileRevision.withId, createTombstone,
      getPageSlug, Except.mapError, processPageEdit, Service.bind_apply, Service.ofPanic_ok,
      Service.ofExcept_apply, runOutdater, insert, Service.pure_apply]⟩)

/-- **Every outcome of `create_resurrection`**: as for a tombstone, with the row and the outdater
on the new page. -/
theorem createResurrection_cases (b : Backend) (input : CreateResurrectionFileRevision)
    (previous : FileRevision) (st : State) :
    (∃ msg, nextRevisionNumber previous input.pageId input.fileId = .error msg ∧
      createResurrection b input previous st = .panic msg st) ∨
    (∃ (e : ExternalError) (st' : State), createResurrection b input previous st =
      .done (.error (.external e)) st' ∧ st'.rows = st.rows ∧ st.outdated <+: st'.outdated ∧
      b.chain .edit input.siteId input.newPageId ((resurrectionRow input
        (wrappingAdd previous.revisionNumber 1) previous).withId st.rows.length) = .error e) ∨
    (previous.fileId = input.fileId ∧ previous.pageId = input.pageId ∧
      ∃ slug, b.chain .edit input.siteId input.newPageId ((resurrectionRow input
        (wrappingAdd previous.revisionNumber 1) previous).withId st.rows.length) = .ok slug ∧
      createResurrection b input previous st =
        .done (.ok ⟨st.rows.length + 1, wrappingAdd previous.revisionNumber 1⟩)
          ⟨st.rows ++ [(resurrectionRow input (wrappingAdd previous.revisionNumber 1)
              previous).withId st.rows.length],
            st.outdated ++ [⟨.edit, input.siteId, input.newPageId, slug, 0⟩]⟩) := by
  rcases hn : nextRevisionNumber previous input.pageId input.fileId with msg | n
  · exact .inl ⟨msg, rfl, by simp only [createResurrection, hn, Service.bind_apply,
      Service.ofPanic_error]⟩
  obtain ⟨hf, hp, rfl⟩ := nextRevisionNumber_eq_ok.1 hn
  rcases hg : b.getPage input.siteId input.newPageId with e | slug
  · exact .inr (.inl ⟨e, st, by
      simp only [createResurrection, hn, getPageSlug, Except.mapError, hg, Service.bind_apply,
          Service.ofPanic_ok, Service.ofExcept_apply], rfl, by simp,
      by simp [Backend.chain, hg, bind, Except.bind]⟩)
  rcases ho : b.outdate ⟨.edit, input.siteId, input.newPageId, slug, 0⟩ with e | ⟨⟩
  · exact .inr (.inl ⟨e, { st with outdated := st.outdated ++ [⟨.edit, input.siteId,
      input.newPageId, slug, 0⟩] }, by simp only [createResurrection, hn, getPageSlug,
          Except.mapError, hg, processPageEdit, Service.bind_apply, Service.ofPanic_ok,
          Service.ofExcept_apply, runOutdater, ho], rfl, by simp,
          by simp [Backend.chain, hg, ho, bind, Except.bind]⟩)
  rcases hw : b.write ((resurrectionRow input (wrappingAdd previous.revisionNumber 1)
      previous).withId st.rows.length) with e | ⟨⟩
  · exact .inr (.inl ⟨e, { st with outdated := st.outdated ++ [⟨.edit, input.siteId,
      input.newPageId, slug, 0⟩] }, by simp_all only [FileRevision.withId, createResurrection,
          getPageSlug, Except.mapError, processPageEdit, Service.bind_apply, Service.ofPanic_ok,
          Service.ofExcept_apply, runOutdater, insert], rfl, by simp,
          by simp [Backend.chain, hg, ho, hw, bind, Except.bind]⟩)
  · exact .inr (.inr ⟨hf, hp, slug, Backend.chain_eq_ok.2 ⟨hg, ho, hw⟩, by
      simp_all only [FileRevision.withId, createResurrection, getPageSlug, Except.mapError, processPageEdit, Service.bind_apply,
      Service.ofPanic_ok, Service.ofExcept_apply, runOutdater, insert, Service.pure_apply]⟩)

def setHidden (rows : List FileRevision) (revisionId : Int) (hidden : List String) :
    List FileRevision :=
  rows.map fun r => if r.revisionId = revisionId then { r with hidden := hidden } else r

/-- **Every outcome of `update`**: it fails and leaves the database as it was, or the latest row of
the requested `(site, page, file)` is not the one named, a row has that `revision_id`, and that
row's `hidden` is set. -/
theorem update_cases (b : Backend) (input : UpdateFileRevision) (st : State) :
    (∃ e, update b input st = .done (.error e) st) ∨
    (∃ latest row,
      latestOf (st.rows.filter (FileRevision.isOf input.siteId input.pageId input.fileId)) =
        some latest ∧ input.revisionId ≠ latest.revisionId ∧
      st.rows.find? (fun r => r.revisionId == input.revisionId) = some row ∧
      update b input st = .done (.ok { row with hidden := input.hidden })
        { st with rows := setHidden st.rows input.revisionId input.hidden }) := by
  rcases getLatest_cases input.siteId input.pageId input.fileId st with ⟨latest, hl, hlo⟩ | hl
  · by_cases heq : input.revisionId = latest.revisionId
    · exact .inl ⟨.cannotHideLatestRevision, by simp only [update, heq, Service.bind_apply, hl,
        ↓reduceIte, Service.fail_apply]⟩
    rcases hf : st.rows.find? (fun r => r.revisionId == input.revisionId) with _ | row
    · exact .inl ⟨.external .database, by simp only [update, Service.bind_apply, hl, heq,
        ↓reduceIte, updateHidden, hf]⟩
    rcases hw : b.write { row with hidden := input.hidden } with e | ⟨⟩
    · exact .inl ⟨.external e, by simp only [update, Service.bind_apply, hl, heq, ↓reduceIte,
        updateHidden, hf, hw]⟩
    · exact .inr ⟨latest, row, hlo, heq, hf, by
        simp only [update, Service.bind_apply, hl, heq, ↓reduceIte, updateHidden, hf, hw,
            setHidden]⟩
  · exact .inl ⟨.fileRevisionNotFound, by simp only [update, Service.bind_apply, hl]⟩

end Deepwell
