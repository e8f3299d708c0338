import Wikijump.Deepwell.Ledger

/-!
# Change detection

What the `changes` column of a new revision says, and how `create` merges a partial update.

* `Differs p r tag` — the field groups in which row `r` differs from row `p` (the blob group on
  hash, size and MIME type at once); `ChangesDescribe p r` — `r.changes` lists exactly those, once
  each, in the order page, name, blob, licensing.
* `mergedSnapshot`, `Unchanged` — the merge of a tri-state body as the design describes it: a set
  group takes its new value, an unset one keeps the previous value.
* `mergeBody_eq` — `create`'s change detection computes that merge, and tags exactly the groups
  whose merged value differs.
* `changes_describe_difference` — every row `create`, `create_tombstone` or
  `create_resurrection` inserts lists exactly how it differs from `previous`; a tombstone keeps
  `previous`'s snapshot, a resurrection its blob and licensing.
* `create_merge_spec` — `create` is a no-op exactly when the body changes nothing, fails with the
  first failing check of the merged snapshot, and otherwise inserts the merged snapshot unless a
  collaborator fails.
-/

set_option autoImplicit false

namespace Deepwell

def FileRevision.snapshot (r : FileRevision) : Snapshot := ⟨r.pageId, r.name, r.blob, r.licensing⟩

/-- The tags of the groups in which `new` differs from `old`, in the order page, name, blob,
licensing. -/
def fieldDiff (old new : Snapshot) : List String :=
  changeTag "page" old.pageId new.pageId ++ changeTag "name" old.name new.name ++
    changeTag "blob" old.blob new.blob ++ changeTag "licensing" old.licensing new.licensing

/-- `r` differs from `p` in the field group `tag`. -/
def Differs (p r : FileRevision) (tag : String) : Prop :=
  (tag = "page" ∧ r.pageId ≠ p.pageId) ∨ (tag = "name" ∧ r.name ≠ p.name) ∨
    (tag = "blob" ∧ (r.s3Hash ≠ p.s3Hash ∨ r.sizeHint ≠ p.sizeHint ∨ r.mimeHint ≠ p.mimeHint)) ∨
    (tag = "licensing" ∧ r.licensing ≠ p.licensing)

/-- `r.changes` names each group in which `r` differs from `p` once, in the order page, name, blob,
licensing, and names nothing else. -/
def ChangesDescribe (p r : FileRevision) : Prop :=
  r.changes.Sublist ["page", "name", "blob", "licensing"] ∧ ∀ tag, tag ∈ r.changes ↔ Differs p r tag

theorem changeTag_sublist {α : Type} [DecidableEq α] (tag : String) (old new : α) :
    (changeTag tag old new).Sublist [tag] := by
  unfold changeTag; split_ifs <;> simp

theorem mem_changeTag {α : Type} [DecidableEq α] {tag t : String} {old new : α} :
    t ∈ changeTag tag old new ↔ t = tag ∧ new ≠ old := by
  unfold changeTag; split_ifs <;> simp_all [eq_comm]

theorem blob_ne_iff {p r : FileRevision} :
    r.blob ≠ p.blob ↔ r.s3Hash ≠ p.s3Hash ∨ r.sizeHint ≠ p.sizeHint ∨ r.mimeHint ≠ p.mimeHint := by
  simp only [FileRevision.blob, ne_eq, FileBlob.mk.injEq]; tauto

/-- **The `fieldDiff` of two rows' snapshots describes their difference.** -/
theorem changesDescribe_of_eq {p r : FileRevision} (h : r.changes = fieldDiff p.snapshot r.snapshot) :
    ChangesDescribe p r := by
  rw [ChangesDescribe, h]
  refine ⟨?_, fun tag => ?_⟩
  · exact ((((changeTag_sublist _ _ _).append (changeTag_sublist _ _ _)).append
      (changeTag_sublist _ _ _)).append (changeTag_sublist _ _ _))
  · simp only [fieldDiff, FileRevision.snapshot, List.mem_append, mem_changeTag, Differs,
      ← blob_ne_iff, or_assoc]

/-! ## The merge of `create` -/

/-- The value a group ends with when the body sets it to `v`, or keeps `old`. -/
def ProvidedValue.getD {α : Type} : ProvidedValue α → α → α
  | .set new, _ => new
  | .unset, old => old

/-- The body leaves the group as it is: unset, or set to the value it already holds. -/
def ProvidedValue.Keeps {α : Type} (v : ProvidedValue α) (old : α) : Prop :=
  ∀ new, v = .set new → new = old

/-- The merged snapshot: each set group's new value, `previous`'s value for each unset one. -/
def mergedSnapshot (previous : FileRevision) (body : CreateFileRevisionBody) : Snapshot :=
  ⟨body.pageId.getD previous.pageId, body.name.getD previous.name,
    body.blob.getD previous.blob, body.licensing.getD previous.licensing⟩

/-- Every group the body sets already holds `previous`'s value (the blob on its hash, size and
MIME type together). -/
def Unchanged (previous : FileRevision) (body : CreateFileRevisionBody) : Prop :=
  body.pageId.Keeps previous.pageId ∧ body.name.Keeps previous.name ∧
    body.blob.Keeps previous.blob ∧ body.licensing.Keeps previous.licensing

theorem provide_eq {α : Type} [DecidableEq α] (tag : String) (old : α) (v : ProvidedValue α) :
    provide tag old v = (changeTag tag old (v.getD old), v.getD old) := by
  cases v with
  | set new => by_cases h : old = new <;> simp [provide, changeTag, ProvidedValue.getD, h]
  | unset => simp [provide, changeTag, ProvidedValue.getD]

theorem changeTag_eq_nil {α : Type} [DecidableEq α] {tag : String} {old : α} {v : ProvidedValue α} :
    changeTag tag old (v.getD old) = [] ↔ v.Keeps old := by
  cases v with
  | set new => simpa [changeTag, ProvidedValue.getD, ProvidedValue.Keeps] using eq_comm
  | unset => simp [changeTag, ProvidedValue.getD, ProvidedValue.Keeps]

/-- **`create`'s change detection is the merge**, and its tags are the groups whose merged value
differs from `previous`'s. -/
theorem mergeBody_eq (previous : FileRevision) (body : CreateFileRevisionBody) :
    mergeBody previous.pageId previous body =
      (mergedSnapshot previous body, fieldDiff previous.snapshot (mergedSnapshot previous body)) := by
  simp only [mergeBody, provide_eq, mergedSnapshot, fieldDiff, FileRevision.snapshot]

theorem fieldDiff_eq_nil (previous : FileRevision) (body : CreateFileRevisionBody) :
    fieldDiff previous.snapshot (mergedSnapshot previous body) = [] ↔ Unchanged previous body := by
  simp only [fieldDiff, mergedSnapshot, FileRevision.snapshot, List.append_eq_nil, changeTag_eq_nil,
    Unchanged, and_assoc]

theorem updateRow_snapshot (input : CreateFileRevision) (m : Snapshot) (changes : List String)
    (n : Nat) : ((updateRow input m changes).withId n).snapshot = m := rfl

/-! ## The changes of a new revision -/

/-- **The changes list of a new revision is its field-level difference from its predecessor.**
For every row `create`, `create_tombstone` or `create_resurrection` inserts after `previous`:
`changes` names each differing field group once, in the order page, name, blob, licensing, and
nothing else; a tombstone has `previous`'s snapshot and no changes; a resurrection keeps
`previous`'s blob and licensing. -/
theorem changes_describe_difference :
    (∀ b input previous st out st', create b input previous st = .done (.ok (some out)) st' →
      ∃ r, st'.rows = st.rows ++ [r] ∧ ChangesDescribe previous r) ∧
    (∀ b input previous st out st', createTombstone b input previous st = .done (.ok out) st' →
      ∃ r, st'.rows = st.rows ++ [r] ∧ ChangesDescribe previous r ∧
        r.snapshot = previous.snapshot ∧ r.changes = []) ∧
    (∀ b input previous st out st', createResurrection b input previous st = .done (.ok out) st' →
      ∃ r, st'.rows = st.rows ++ [r] ∧ ChangesDescribe previous r ∧ r.blob = previous.blob ∧
        r.licensing = previous.licensing) := by
  refine ⟨fun b input previous st out st' h => ?_, fun b input previous st out st' h => ?_,
    fun b input previous st out st' h => ?_⟩
  · rcases hm : mergeBody input.pageId previous input.body with ⟨m, changes⟩
    rcases create_cases b input previous st hm with ⟨msg, -, h'⟩ |
      ⟨-, hp, ⟨-, h'⟩ | ⟨-, e, -, h'⟩ | ⟨-, -, e, st₁, h', -⟩ | ⟨-, -, slug, -, h'⟩⟩ <;>
      rw [h'] at h <;> cases h
    rw [← hp, mergeBody_eq] at hm
    cases hm
    exact ⟨_, rfl, changesDescribe_of_eq rfl⟩
  · rcases createTombstone_cases b input previous st with ⟨msg, -, h'⟩ | ⟨e, st₁, h', -⟩ |
      ⟨-, hp, slug, -, h'⟩ <;> rw [h'] at h <;> cases h
    have hs : ((tombstoneRow input (wrappingAdd previous.revisionNumber 1) previous).withId
        st.rows.length).snapshot = previous.snapshot := by
      simp [FileRevision.snapshot, tombstoneRow, FileRevision.withId, FileRevision.blob, hp]
    refine ⟨_, rfl, changesDescribe_of_eq ?_, hs, rfl⟩
    rw [hs]; simp [tombstoneRow, FileRevision.withId, fieldDiff, changeTag]
  · rcases createResurrection_cases b input previous st with ⟨msg, -, h'⟩ | ⟨e, st₁, h', -⟩ |
      ⟨-, hp, slug, -, h'⟩ <;> rw [h'] at h <;> cases h
    refine ⟨_, rfl, changesDescribe_of_eq ?_, rfl, rfl⟩
    simp [resurrectionRow, FileRevision.withId, fieldDiff, FileRevision.snapshot, resurrectionChanges,
      FileRevision.blob, hp, changeTag]

/-! ## The merge of a partial update -/

/-- **`create` merges a partial update correctly.**  For every previous row `p` numbered below
`i32::MAX` and every tri-state body, with the `page_id` and `file_id` of `p`: `create` returns
`Ok(None)` exactly when every group the body sets already holds `p`'s value; otherwise it fails
with `FileNameEmpty`, `FileNameTooLong` or `FileMimeEmpty` exactly when the merged name is empty,
has 256 bytes or more, or the merged MIME type is empty, checked in that order; and otherwise it
inserts a row holding the merged snapshot when the page lookup, the outdater and the write all
accept, and returns the first refusal with the table kept when one does not.  Below `i32::MAX`
the addition of `next_revision_number` does not overflow, so a build with overflow checks takes
the same paths. -/
theorem create_merge_spec (b : Backend) (p : FileRevision) (siteId userId : Int)
    (comments : String) (body : CreateFileRevisionBody) (st : State)
    (hlt : p.revisionNumber < I32_MAX) :
    let input : CreateFileRevision := ⟨siteId, p.pageId, p.fileId, userId, comments, body⟩
    let m := mergedSnapshot p body
    nextRevisionNumberChecked p p.pageId p.fileId = .ok (p.revisionNumber + 1) ∧
    ((∃ st', create b input p st = .done (.ok none) st') ↔ Unchanged p body) ∧
    (¬ Unchanged p body →
      ((∃ st', create b input p st = .done (.error .fileNameEmpty) st') ↔ m.name = "") ∧
      ((∃ st', create b input p st = .done (.error .fileNameTooLong) st') ↔
        m.name ≠ "" ∧ 256 ≤ m.name.utf8ByteSize) ∧
      ((∃ st', create b input p st = .done (.error .fileMimeEmpty) st') ↔
        m.name ≠ "" ∧ m.name.utf8ByteSize < 256 ∧ m.blob.mimeHint = "") ∧
      (ValidSnapshot m.name m.blob.mimeHint → ∃ r, r.snapshot = m ∧
        ((∃ out st', create b input p st = .done (.ok (some out)) st' ∧
            st'.rows = st.rows ++ [r] ∧ ∃ slug, b.chain .edit siteId m.pageId r = .ok slug) ∨
          ∃ e st', create b input p st = .done (.error (.external e)) st' ∧
            st'.rows = st.rows ∧ b.chain .edit siteId m.pageId r = .error e))) := by
  intro input m
  unfold m
  refine ⟨nextRevisionNumberChecked_eq_ok rfl rfl hlt, ?_⟩
  have hu := fieldDiff_eq_nil p body
  rcases create_cases b input p st (mergeBody_eq p body) with ⟨msg, hn, -⟩ |
    ⟨-, -, ⟨hc, h⟩ | ⟨hc, e, hv, h⟩ | ⟨hc, hv, e, st', h, hr, -, hch⟩ | ⟨hc, hv, slug, hch, h⟩⟩
  · simp [nextRevisionNumber, input] at hn
  · simp [h, ← hu, hc]
  · rcases validate_eq_error.1 hv with ⟨rfl, h1⟩ | ⟨rfl, h1, h2⟩ | ⟨rfl, h1, h2, h3⟩
    · simp [h, ← hu, hc, ValidSnapshot, h1]
    · simp [h, ← hu, hc, ValidSnapshot, h1, h2, Nat.not_lt.2 h2]
    · simp [h, ← hu, hc, ValidSnapshot, h1, h2, h3, Nat.not_le.2 h2]
  · have hs := validate_eq_ok.1 hv
    refine ⟨by simp [h, ← hu, hc], fun _ => ⟨?_, ?_, ?_, fun _ =>
      ⟨_, by rfl, .inr ⟨e, st', h, hr, hch⟩⟩⟩⟩ <;> simp_all [ValidSnapshot]
  · have hs := validate_eq_ok.1 hv
    refine ⟨by simp [h, ← hu, hc], fun _ => ⟨?_, ?_, ?_, fun _ =>
      ⟨_, by rfl, .inl ⟨_, _, h, rfl, slug, hch⟩⟩⟩⟩ <;> simp_all [ValidSnapshot]

/-- Renaming the first revision of `a.png` (numbered 0, far below `i32::MAX`) to `b.png`: the
overflow-checked addition gives 1, the body changes the name, and with collaborators that accept,
`create` stores the renamed row. -/
theorem create_merge_spec_rename :
    ((firstRow (firstPng 1)).withId 0).revisionNumber < I32_MAX ∧
      nextRevisionNumberChecked ((firstRow (firstPng 1)).withId 0) 1 1 = .ok 1 ∧
      ((∃ st', create Backend.allOk ⟨1, 1, 1, 1, "", ⟨.unset, .set "b.png", .unset, .unset⟩⟩
          ((firstRow (firstPng 1)).withId 0) ⟨[], []⟩ = .done (.ok none) st') ↔
        Unchanged ((firstRow (firstPng 1)).withId 0) ⟨.unset, .set "b.png", .unset, .unset⟩) ∧
      ∃ r out st', r.name = "b.png" ∧
        create Backend.allOk ⟨1, 1, 1, 1, "", ⟨.unset, .set "b.png", .unset, .unset⟩⟩
          ((firstRow (firstPng 1)).withId 0) ⟨[], []⟩ = .done (.ok (some out)) st' ∧
        st'.rows = [r] :=
  have h := create_merge_spec Backend.allOk ((firstRow (firstPng 1)).withId 0) 1 1 ""
    ⟨.unset, .set "b.png", .unset, .unset⟩ ⟨[], []⟩ (by decide)
  have hc : ¬ Unchanged ((firstRow (firstPng 1)).withId 0) ⟨.unset, .set "b.png", .unset, .unset⟩ :=
    fun hu => absurd (hu.2.1 "b.png" rfl) (by decide)
  match (h.2.2 hc).2.2.2 (by decide) with
  | ⟨r, hs, .inl ⟨out, st', hcr, hr, _⟩⟩ =>
    ⟨by decide, h.1, h.2.1, r, out, st', congrArg Snapshot.name hs, hcr, hr⟩
  | ⟨_, _, .inr ⟨_, _, _, _, hch⟩⟩ => nomatch hch

end Deepwell
