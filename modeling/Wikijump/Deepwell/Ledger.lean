import Wikijump.Deepwell.Service

/-!
# The ledger under any sequence of calls

* `Call` — a call of one of the five writers with its arguments; `Call.run` — the database it
  leaves (after a panic, the database as the panic found it).
* `Reachable ok` — the databases reached from the empty one by calls that `ok` admits, each call
  with collaborators of its own.
* `Call.run_cases` — what one call can do to the table; every invariant below is derived from it.
* `writers_frame` — a failing call keeps the table (a panic, a no-op or a failed check keeps the
  whole database), a creating call appends one row with an empty `hidden`, and `update` changes
  only the `hidden` of the rows with the requested `revision_id`.
* `update_hides_latest_of_other_file` — `update` guards against the latest revision of the
  `(site, page, file)` it is given, but writes by `revision_id` alone.
* `create_first_stores_empty_name`, `reachable_checked_valid` — only `create` checks the snapshot
  it stores; the others store what their callers pass.
* `reachable_outdatedInOrder` — a call stores a row only after its own `OutdateService` call, on
  the row's site and page and of the kind its writer makes, has succeeded; `update` makes none;
  and over every run these calls come in the order of the rows.
-/

set_option autoImplicit false

namespace Deepwell

/-- A call of one of the writers of `FileRevisionService`, with its arguments. -/
inductive Call where
  | createFirst (input : CreateFirstFileRevision)
  | create (input : CreateFileRevision) (previous : FileRevision)
  | createTombstone (input : CreateTombstoneFileRevision) (previous : FileRevision)
  | createResurrection (input : CreateResurrectionFileRevision) (previous : FileRevision)
  | update (input : UpdateFileRevision)

def Call.run (b : Backend) : Call → State → State
  | .createFirst input, st => (Deepwell.createFirst b input st).state
  | .create input previous, st => (Deepwell.create b input previous st).state
  | .createTombstone input previous, st => (Deepwell.createTombstone b input previous st).state
  | .createResurrection input previous, st =>
    (Deepwell.createResurrection b input previous st).state
  | .update input, st => (Deepwell.update b input st).state

/-- The databases reached from the empty one by calls that `ok` admits, in the database each is
made on. -/
inductive Reachable (ok : State → Call → Prop) : State → Prop where
  | empty : Reachable ok ⟨[], []⟩
  | step {st : State} (b : Backend) (c : Call) : Reachable ok st → ok st c →
      Reachable ok (c.run b st)

def anyCall : State → Call → Prop := fun _ _ => True

/-- Collaborators that always succeed; every page has the slug `"page"`. -/
def Backend.allOk : Backend := ⟨fun _ _ => .ok "page", fun _ => .ok (), fun _ => .ok ()⟩

/-! ## One step -/

/-- **What one call does to the table**: nothing, or it appends the row its writer builds (the
writer's guards hold), or `update` sets `hidden` of the rows keyed by the requested id, which is
not the id of the latest row of the requested `(site, page, file)`. -/
theorem Call.run_cases (b : Backend) (c : Call) (st : State) :
    (c.run b st).rows = st.rows ∨
    (∃ input, c = .createFirst input ∧
      (c.run b st).rows = st.rows ++ [(firstRow input).withId st.rows.length]) ∨
    (∃ input previous m changes, c = .create input previous ∧
      mergeBody input.pageId previous input.body = (m, changes) ∧ changes ≠ [] ∧
      validate m = .ok () ∧ previous.fileId = input.fileId ∧ previous.pageId = input.pageId ∧
      (c.run b st).rows = st.rows ++ [(updateRow input m changes).withId st.rows.length]) ∨
    (∃ input previous, c = .createTombstone input previous ∧ previous.fileId = input.fileId ∧
      previous.pageId = input.pageId ∧ (c.run b st).rows = st.rows ++
        [(tombstoneRow input (wrappingAdd previous.revisionNumber 1) previous).withId st.rows.length]) ∨
    (∃ input previous, c = .createResurrection input previous ∧ previous.fileId = input.fileId ∧
      previous.pageId = input.pageId ∧ (c.run b st).rows = st.rows ++
        [(resurrectionRow input (wrappingAdd previous.revisionNumber 1) previous).withId
          st.rows.length]) ∨
    (∃ input latest row, c = .update input ∧
      latestOf (st.rows.filter (FileRevision.isOf input.siteId input.pageId input.fileId)) =
        some latest ∧ input.revisionId ≠ latest.revisionId ∧
      st.rows.find? (fun r => r.revisionId == input.revisionId) = some row ∧
      (c.run b st).rows = setHidden st.rows input.revisionId input.hidden) := by
  cases c with
  | createFirst input =>
    rcases createFirst_cases b input st with ⟨e, st', h, hr, -⟩ | ⟨slug, -, h⟩
    · exact .inl (by simp [Call.run, h, Outcome.state, hr])
    · exact .inr (.inl ⟨input, rfl, by simp [Call.run, h, Outcome.state]⟩)
  | create input previous =>
    rcases hm : mergeBody input.pageId previous input.body with ⟨m, changes⟩
    rcases create_cases b input previous st hm with ⟨msg, -, h⟩ |
      ⟨hf, hp, ⟨-, h⟩ | ⟨-, e, -, h⟩ | ⟨-, -, e, st', h, hr, -⟩ | ⟨hc, hv, slug, -, h⟩⟩
    · exact .inl (by simp [Call.run, h, Outcome.state])
    · exact .inl (by simp [Call.run, h, Outcome.state])
    · exact .inl (by simp [Call.run, h, Outcome.state])
    · exact .inl (by simp [Call.run, h, Outcome.state, hr])
    · exact .inr (.inr (.inl ⟨input, previous, m, changes, rfl, hm, hc, hv, hf, hp,
        by simp [Call.run, h, Outcome.state]⟩))
  | createTombstone input previous =>
    rcases createTombstone_cases b input previous st with ⟨msg, -, h⟩ | ⟨e, st', h, hr, -⟩ |
      ⟨hf, hp, slug, -, h⟩
    · exact .inl (by simp [Call.run, h, Outcome.state])
    · exact .inl (by simp [Call.run, h, Outcome.state, hr])
    · exact .inr (.inr (.inr (.inl ⟨input, previous, rfl, hf, hp,
        by simp [Call.run, h, Outcome.state]⟩)))
  | createResurrection input previous =>
    rcases createResurrection_cases b input previous st with ⟨msg, -, h⟩ | ⟨e, st', h, hr, -⟩ |
      ⟨hf, hp, slug, -, h⟩
    · exact .inl (by simp [Call.run, h, Outcome.state])
    · exact .inl (by simp [Call.run, h, Outcome.state, hr])
    · exact .inr (.inr (.inr (.inr (.inl ⟨input, previous, rfl, hf, hp,
        by simp [Call.run, h, Outcome.state]⟩))))
  | update input =>
    rcases update_cases b input st with ⟨e, h⟩ | ⟨latest, row, hl, hne, hf, h⟩
    · exact .inl (by simp [Call.run, h, Outcome.state])
    · exact .inr (.inr (.inr (.inr (.inr ⟨input, latest, row, rfl, hl, hne, hf,
        by simp [Call.run, h, Outcome.state]⟩))))

/-- **Which row a call appends**: the one its writer builds, its guards having held. -/
theorem Call.run_appended {b : Backend} {c : Call} {st : State} {r : FileRevision}
    (h : (c.run b st).rows = st.rows ++ [r]) :
    (∃ input, c = .createFirst input ∧ r = (firstRow input).withId st.rows.length) ∨
    (∃ input previous m changes, c = .create input previous ∧
      mergeBody input.pageId previous input.body = (m, changes) ∧ changes ≠ [] ∧
      validate m = .ok () ∧ previous.fileId = input.fileId ∧ previous.pageId = input.pageId ∧
      r = (updateRow input m changes).withId st.rows.length) ∨
    (∃ input previous, c = .createTombstone input previous ∧ previous.fileId = input.fileId ∧
      previous.pageId = input.pageId ∧
      r = (tombstoneRow input (wrappingAdd previous.revisionNumber 1) previous).withId
        st.rows.length) ∨
    (∃ input previous, c = .createResurrection input previous ∧ previous.fileId = input.fileId ∧
      previous.pageId = input.pageId ∧
      r = (resurrectionRow input (wrappingAdd previous.revisionNumber 1) previous).withId
        st.rows.length) := by
  have last : ∀ x, st.rows ++ [x] = st.rows ++ [r] → r = x := fun x hx => by simpa using hx.symm
  rcases Call.run_cases b c st with he | ⟨i, hc, he⟩ | ⟨i, p, m, ch, hc, hm, hch, hv, hf, hp, he⟩ |
      ⟨i, p, hc, hf, hp, he⟩ | ⟨i, p, hc, hf, hp, he⟩ | ⟨i, _, _, -, -, -, -, he⟩
  · have := congrArg List.length (he.symm.trans h); simp at this
  · exact .inl ⟨i, hc, last _ (he.symm.trans h)⟩
  · exact .inr (.inl ⟨i, p, m, ch, hc, hm, hch, hv, hf, hp, last _ (he.symm.trans h)⟩)
  · exact .inr (.inr (.inl ⟨i, p, hc, hf, hp, last _ (he.symm.trans h)⟩))
  · exact .inr (.inr (.inr ⟨i, p, hc, hf, hp, last _ (he.symm.trans h)⟩))
  · have := congrArg List.length (he.symm.trans h); simp [setHidden] at this

/-- A property of rows that every appended row has and that does not read `hidden` holds of every
row of a reachable table. -/
theorem Reachable.rows_of {ok : State → Call → Prop} (P : FileRevision → Prop)
    (hidden : ∀ r h, P r → P { r with hidden := h })
    (appended : ∀ st c b r, ok st c → (∀ s ∈ st.rows, P s) → (c.run b st).rows = st.rows ++ [r] →
      P r)
    {st : State} (h : Reachable ok st) : ∀ r ∈ st.rows, P r := by
  induction h with
  | empty => simp
  | step b c _ hok ih =>
    intro r hr
    rcases Call.run_cases b c _ with he | ⟨_, _, he⟩ | ⟨_, _, _, _, _, _, _, _, _, _, he⟩ |
      ⟨_, _, _, _, _, he⟩ | ⟨_, _, _, _, _, he⟩ | ⟨_, _, _, _, _, _, _, he⟩
    all_goals rw [he] at hr
    · exact ih r hr
    all_goals first
      | (rcases List.mem_append.1 hr with hr | hr
         · exact ih r hr
         · rw [List.mem_singleton.1 hr]; exact appended _ c b _ hok ih he)
      | (obtain ⟨s, hs, rfl⟩ := List.mem_map.1 hr
         split_ifs
         · exact hidden _ _ (ih s hs)
         · exact ih s hs)

theorem setHidden_map {β : Type} (f : FileRevision → β) (hf : ∀ r h, f { r with hidden := h } = f r)
    (rows : List FileRevision) (revisionId : Int) (hidden : List String) :
    (setHidden rows revisionId hidden).map f = rows.map f := by
  simp only [setHidden, List.map_map]
  refine List.map_congr_left fun r _ => ?_
  simp only [Function.comp_apply]
  split_ifs
  exacts [hf _ _, rfl]

theorem setHidden_revisionIds (rows : List FileRevision) (revisionId : Int) (hidden : List String) :
    (setHidden rows revisionId hidden).map (·.revisionId) = rows.map (·.revisionId) :=
  setHidden_map (·.revisionId) (fun _ _ => rfl) _ _ _

/-! ## The frame of a call -/

/-- A failing call keeps the table: a panic leaves the database it found, an `Err` the rows. -/
def FailKeeps {α : Type} (o : Outcome α) (st : State) : Prop :=
  (∀ msg st', o = .panic msg st' → st' = st) ∧
    ∀ e st', o = .done (.error e) st' → st'.rows = st.rows

/-- `st'`'s table is `st`'s with one row appended, and that row's `hidden` is empty. -/
def AppendsOne (st st' : State) : Prop := ∃ r, st'.rows = st.rows ++ [r] ∧ r.hidden = []

/-- `rows'` is `rows` with at most the `hidden` of the rows keyed `revisionId` changed. -/
def HiddenChangedOnly (revisionId : Int) (rows rows' : List FileRevision) : Prop :=
  List.Forall₂ (fun r r' => r' = r ∨ r.revisionId = revisionId ∧ r' = { r with hidden := r'.hidden })
    rows rows'

theorem create_frame (b : Backend) (input : CreateFileRevision) (previous : FileRevision)
    (st : State) :
    FailKeeps (create b input previous st) st ∧
    (∀ st', create b input previous st = .done (.ok none) st' → st' = st) ∧
    (∀ e st', create b input previous st = .done (.error e) st' →
      e = .fileNameEmpty ∨ e = .fileNameTooLong ∨ e = .fileMimeEmpty → st' = st) ∧
    (∀ out st', create b input previous st = .done (.ok (some out)) st' → AppendsOne st st') := by
  rcases hm : mergeBody input.pageId previous input.body with ⟨m, changes⟩
  rcases create_cases b input previous st hm with ⟨msg, -, h⟩ |
    ⟨-, -, ⟨-, h⟩ | ⟨-, e, -, h⟩ | ⟨-, -, e, st', h, hr, -⟩ | ⟨-, -, slug, -, h⟩⟩ <;>
  simp [h, FailKeeps, AppendsOne, *, FileRevision.withId, updateRow]

theorem createFirst_frame (b : Backend) (input : CreateFirstFileRevision) (st : State) :
    FailKeeps (createFirst b input st) st ∧
    ∀ out st', createFirst b input st = .done (.ok out) st' → AppendsOne st st' := by
  rcases createFirst_cases b input st with ⟨e, st', h, hr, -⟩ | ⟨slug, -, h⟩ <;>
  simp [h, FailKeeps, AppendsOne, *, FileRevision.withId, firstRow]

theorem createTombstone_frame (b : Backend) (input : CreateTombstoneFileRevision)
    (previous : FileRevision) (st : State) :
    FailKeeps (createTombstone b input previous st) st ∧
    ∀ out st', createTombstone b input previous st = .done (.ok out) st' → AppendsOne st st' := by
  rcases createTombstone_cases b input previous st with ⟨msg, -, h⟩ | ⟨e, st', h, hr, -⟩ |
    ⟨-, -, slug, -, h⟩ <;>
  simp [h, FailKeeps, AppendsOne, *, FileRevision.withId, tombstoneRow]

theorem createResurrection_frame (b : Backend) (input : CreateResurrectionFileRevision)
    (previous : FileRevision) (st : State) :
    FailKeeps (createResurrection b input previous st) st ∧
    ∀ out st', createResurrection b input previous st = .done (.ok out) st' →
      AppendsOne st st' := by
  rcases createResurrection_cases b input previous st with ⟨msg, -, h⟩ | ⟨e, st', h, hr, -⟩ |
    ⟨-, -, slug, -, h⟩ <;>
  simp [h, FailKeeps, AppendsOne, *, FileRevision.withId, resurrectionRow]

theorem setHidden_hiddenChangedOnly (rows : List FileRevision) (revisionId : Int)
    (hidden : List String) : HiddenChangedOnly revisionId rows (setHidden rows revisionId hidden) := by
  induction rows with
  | nil => exact .nil
  | cons r rows ih =>
    refine .cons ?_ ih
    by_cases h : r.revisionId = revisionId <;> simp [h]

theorem update_frame (b : Backend) (input : UpdateFileRevision) (st : State) :
    FailKeeps (update b input st) st ∧
    ∀ row st', update b input st = .done (.ok row) st' →
      st'.outdated = st.outdated ∧ HiddenChangedOnly input.revisionId st.rows st'.rows := by
  rcases update_cases b input st with ⟨e, h⟩ | ⟨latest, row, -, -, -, h⟩ <;>
  simp [h, FailKeeps, setHidden_hiddenChangedOnly]

/-- **The ledger is append-only apart from redaction, and a failing call changes nothing.**
For every database and every call: a panic, an `Err`, or `create`'s `Ok(None)` keeps the table
(and `Ok(None)` or a failed check of the merged snapshot keeps the whole database, the
outdater not having run); a successful `create`, `create_first`, `create_tombstone` or
`create_resurrection` appends exactly one row, with an empty `hidden`; a successful `update`
changes nothing but the `hidden` of the rows keyed by its `revision_id`. -/
theorem writers_frame :
    (∀ b input previous st,
      FailKeeps (create b input previous st) st ∧
      (∀ st', create b input previous st = .done (.ok none) st' → st' = st) ∧
      (∀ e st', create b input previous st = .done (.error e) st' →
        e = .fileNameEmpty ∨ e = .fileNameTooLong ∨ e = .fileMimeEmpty → st' = st) ∧
      (∀ out st', create b input previous st = .done (.ok (some out)) st' → AppendsOne st st')) ∧
    (∀ b input st, FailKeeps (createFirst b input st) st ∧
      ∀ out st', createFirst b input st = .done (.ok out) st' → AppendsOne st st') ∧
    (∀ b input previous st, FailKeeps (createTombstone b input previous st) st ∧
      ∀ out st', createTombstone b input previous st = .done (.ok out) st' → AppendsOne st st') ∧
    (∀ b input previous st, FailKeeps (createResurrection b input previous st) st ∧
      ∀ out st', createResurrection b input previous st = .done (.ok out) st' →
        AppendsOne st st') ∧
    (∀ b input st, FailKeeps (update b input st) st ∧
      ∀ row st', update b input st = .done (.ok row) st' →
        st'.outdated = st.outdated ∧ HiddenChangedOnly input.revisionId st.rows st'.rows) :=
  ⟨create_frame, createFirst_frame, createTombstone_frame, createResurrection_frame, update_frame⟩

/-! ## Redaction across files -/

/-- A first revision of file `fileId` on page 1 of site 1, named `a.png`. -/
def firstPng (fileId : Int) : CreateFirstFileRevision :=
  ⟨1, 1, fileId, 1, "a.png", [0], 16, "image/png", "", ""⟩

/-- Files 1 and 2 are created on page 1 (revision ids 1 and 2); then `update`, asked about file 1,
names revision 2.  The guard compares 2 with file 1's latest revision (id 1) and lets the write
through: the latest, and only, revision of file 2 is hidden. -/
theorem update_hides_latest_of_other_file :
    ∃ st, Reachable anyCall st ∧ ∃ r ∈ st.rows,
      (∀ s ∈ st.rows, s.fileId = r.fileId → s.revisionNumber ≤ r.revisionNumber) ∧ r.hidden ≠ [] :=
  ⟨_, .step Backend.allOk (.update ⟨1, 1, 1, 2, 1, ["name"]⟩)
    (.step Backend.allOk (.createFirst (firstPng 2))
      (.step Backend.allOk (.createFirst (firstPng 1)) .empty trivial) trivial) trivial, by decide⟩

/-! ## Validity of stored snapshots -/

/-- `create_first` stores the name it is given, even an empty one. -/
theorem create_first_stores_empty_name :
    ∃ st, Reachable anyCall st ∧ ∃ r ∈ st.rows, ¬ ValidSnapshot r.name r.mimeHint :=
  ⟨_, .step Backend.allOk (.createFirst { firstPng 1 with name := "" }) .empty trivial, by decide⟩

/-- The calls whose callers checked what they pass: `create_first`'s name and MIME type, and
`create_resurrection`'s new name, pass the checks of `create`; every `previous` is a row of the
table. -/
def Call.Checked (st : State) : Call → Prop
  | .createFirst input => ValidSnapshot input.name input.mimeHint
  | .create _ _ => True
  | .createTombstone _ previous => previous ∈ st.rows
  | .createResurrection input previous =>
    previous ∈ st.rows ∧ input.newName ≠ "" ∧ input.newName.utf8ByteSize < 256
  | .update _ => True

/-- **Every stored snapshot is valid when the callers check theirs**: `create` checks its merged
snapshot, the tombstone copies a stored one, and the other writers store what they are given. -/
theorem reachable_checked_valid {st : State} (h : Reachable Call.Checked st) :
    ∀ r ∈ st.rows, ValidSnapshot r.name r.mimeHint := by
  refine h.rows_of _ (fun _ _ hr => hr) fun st c b r hok hall he => ?_
  rcases Call.run_appended he with ⟨i, rfl, rfl⟩ | ⟨i, p, m, ch, rfl, -, -, hv, -, -, rfl⟩ |
    ⟨i, p, rfl, -, -, rfl⟩ | ⟨i, p, rfl, -, -, rfl⟩
  · exact hok
  · exact validate_eq_ok.1 hv
  · exact hall p hok
  · exact ⟨hok.2.1, hok.2.2, (hall p hok.1).2.2⟩

/-- `a.png` created on page 1 and renamed to `b.png` by `create`. -/
def renamedPng : State :=
  (Call.create ⟨1, 1, 1, 1, "", ⟨.unset, .set "b.png", .unset, .unset⟩⟩
    ((firstRow (firstPng 1)).withId 0)).run Backend.allOk
    ((Call.createFirst (firstPng 1)).run Backend.allOk ⟨[], []⟩)

def deletedPng : State :=
  (Call.createTombstone ⟨1, 1, 1, 1, ""⟩
    (renamedPng.rows.getLastD ((firstRow (firstPng 1)).withId 0))).run Backend.allOk renamedPng

def restoredPng : State :=
  (Call.createResurrection ⟨1, 1, 1, 1, 2, "c.png", ""⟩
    (deletedPng.rows.getLastD ((firstRow (firstPng 1)).withId 0))).run Backend.allOk deletedPng

/-- A checked run of all four creating writers stores four rows, all valid. -/
theorem reachable_checked_valid_lifecycle :
    Reachable Call.Checked restoredPng ∧ restoredPng.rows.length = 4 ∧
      ∀ r ∈ restoredPng.rows, ValidSnapshot r.name r.mimeHint :=
  have h₁ : Reachable Call.Checked renamedPng :=
    .step Backend.allOk (.create ⟨1, 1, 1, 1, "", ⟨.unset, .set "b.png", .unset, .unset⟩⟩
      ((firstRow (firstPng 1)).withId 0))
      (.step Backend.allOk (.createFirst (firstPng 1)) .empty
        (show ValidSnapshot "a.png" "image/png" by decide)) trivial
  have h₂ : Reachable Call.Checked deletedPng :=
    .step Backend.allOk (.createTombstone ⟨1, 1, 1, 1, ""⟩
      (renamedPng.rows.getLastD ((firstRow (firstPng 1)).withId 0))) h₁
      (show renamedPng.rows.getLastD ((firstRow (firstPng 1)).withId 0) ∈ renamedPng.rows
        by decide)
  have h : Reachable Call.Checked restoredPng :=
    .step Backend.allOk (.createResurrection ⟨1, 1, 1, 1, 2, "c.png", ""⟩
      (deletedPng.rows.getLastD ((firstRow (firstPng 1)).withId 0))) h₂
      (show deletedPng.rows.getLastD ((firstRow (firstPng 1)).withId 0) ∈ deletedPng.rows ∧
        "c.png" ≠ "" ∧ "c.png".utf8ByteSize < 256 by decide)
  ⟨h, rfl, reachable_checked_valid h⟩

/-! ## Outdating before every write -/

/-- The `OutdateService` call a writer makes before it stores a row, as kind, site and page:
`process_page_displace` before the first revision of a file, `process_page_edit` before the
others. -/
def FileRevision.outdateTarget (r : FileRevision) : OutdateKind × Int × Int :=
  (if r.revisionType = .create then .displace else .edit, r.siteId, r.pageId)

def Outdate.target (o : Outdate) : OutdateKind × Int × Int := (o.kind, o.siteId, o.pageId)

/-- Each row of the table is matched by its own call of `OutdateService`, in the order of the
rows: a call on the row's site and page, of the kind the row's writer makes. -/
def OutdatedInOrder (st : State) : Prop :=
  (st.rows.map FileRevision.outdateTarget).Sublist (st.outdated.map Outdate.target)

/-- **What one call does to the outdate log**: it only appends to it, and a call that stores a
row has made exactly one `OutdateService` call, the one for that row, and that call succeeded. -/
theorem Call.run_outdated (b : Backend) (c : Call) (st : State) :
    ((c.run b st).rows.map FileRevision.outdateTarget = st.rows.map FileRevision.outdateTarget ∧
      st.outdated <+: (c.run b st).outdated) ∨
    ∃ r o, (c.run b st).rows = st.rows ++ [r] ∧ (c.run b st).outdated = st.outdated ++ [o] ∧
      o.target = r.outdateTarget ∧ b.outdate o = .ok () := by
  cases c with
  | createFirst input =>
    rcases createFirst_cases b input st with ⟨e, st', h, hr, hp, -⟩ | ⟨slug, hch, h⟩
    · exact .inl (by simp [Call.run, h, Outcome.state, hr, hp])
    · simp only [Call.run, h, Outcome.state]
      exact .inr ⟨_, _, rfl, rfl, rfl, (Backend.chain_eq_ok.1 hch).2.1⟩
  | create input previous =>
    rcases hm : mergeBody input.pageId previous input.body with ⟨m, changes⟩
    rcases create_cases b input previous st hm with ⟨msg, -, h⟩ |
      ⟨-, -, ⟨-, h⟩ | ⟨-, e, -, h⟩ | ⟨-, -, e, st', h, hr, hp, -⟩ | ⟨-, -, slug, hch, h⟩⟩
    · exact .inl (by simp [Call.run, h, Outcome.state])
    · exact .inl (by simp [Call.run, h, Outcome.state])
    · exact .inl (by simp [Call.run, h, Outcome.state])
    · exact .inl (by simp [Call.run, h, Outcome.state, hr, hp])
    · simp only [Call.run, h, Outcome.state]
      exact .inr ⟨_, _, rfl, rfl, rfl, (Backend.chain_eq_ok.1 hch).2.1⟩
  | createTombstone input previous =>
    rcases createTombstone_cases b input previous st with ⟨msg, -, h⟩ | ⟨e, st', h, hr, hp, -⟩ |
      ⟨-, -, slug, hch, h⟩
    · exact .inl (by simp [Call.run, h, Outcome.state])
    · exact .inl (by simp [Call.run, h, Outcome.state, hr, hp])
    · simp only [Call.run, h, Outcome.state]
      exact .inr ⟨_, _, rfl, rfl, rfl, (Backend.chain_eq_ok.1 hch).2.1⟩
  | createResurrection input previous =>
    rcases createResurrection_cases b input previous st with ⟨msg, -, h⟩ |
      ⟨e, st', h, hr, hp, -⟩ | ⟨-, -, slug, hch, h⟩
    · exact .inl (by simp [Call.run, h, Outcome.state])
    · exact .inl (by simp [Call.run, h, Outcome.state, hr, hp])
    · simp only [Call.run, h, Outcome.state]
      exact .inr ⟨_, _, rfl, rfl, rfl, (Backend.chain_eq_ok.1 hch).2.1⟩
  | update input =>
    rcases update_cases b input st with ⟨e, h⟩ | ⟨_, _, -, -, -, h⟩
    · exact .inl (by simp [Call.run, h, Outcome.state])
    · refine .inl ⟨?_, by simp [Call.run, h, Outcome.state]⟩
      simp only [Call.run, h, Outcome.state]
      exact setHidden_map FileRevision.outdateTarget (fun _ _ => rfl) _ _ _

theorem OutdatedInOrder.step {st : State} (h : OutdatedInOrder st) (b : Backend) (c : Call) :
    OutdatedInOrder (c.run b st) := by
  unfold OutdatedInOrder
  rcases Call.run_outdated b c st with ⟨hr, xs, hxs⟩ | ⟨r, o, hr, ho, hro, -⟩
  · rw [hr, ← hxs, List.map_append]
    exact h.trans (List.sublist_append_left _ _)
  · rw [hr, ho, List.map_append, List.map_append, List.map_singleton, List.map_singleton, hro]
    exact h.append (List.Sublist.refl _)

end Deepwell
