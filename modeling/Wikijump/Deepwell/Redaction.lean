import Wikijump.Deepwell.Ledger

/-!
# Redaction

`update` is the one call of `FileRevisionService` that changes a stored row, and it changes only
`hidden`: "revisions are immutable entries in an append-only log.  However, the `hidden` column
can be updated".  Over whole runs, from any database:

* `Call.runAll` — calls run in order, each with its own collaborators;
* `FileRevision.unhide` — a row without its `hidden` column: what redaction leaves of it;
* `runAll_history` — **the history is written once**: the rows stored before a run keep their
  place and every column but `hidden`, the run only appends, and a row's `hidden` is what it was,
  empty, or the list an `update` of the run passed for the row's `revision_id`;
* `reads`, `reads_eq_of_unhide` — `get_latest`, `get_optional`, `count` and `get_range` see the
  table only through its rows without `hidden`, so an `update` changes no read;
* `Call.run_update_comm`, `Call.run_update_last_wins` — redactions of two revision ids commute,
  and of one id the later successful one decides the row.

These read the rows in the model's order.  `RowOrder` states the last three for every order the
database may choose.
-/

set_option autoImplicit false

namespace Deepwell

/-! ## Runs of calls -/

/-- Calls run in order, each with its own collaborators. -/
def Call.runAll (calls : List (Backend × Call)) (st : State) : State :=
  calls.foldl (fun st bc => bc.2.run bc.1 st) st

/-- A row without its `hidden` column: what redaction leaves of it. -/
def FileRevision.unhide (r : FileRevision) : FileRevision := { r with hidden := [] }

@[simp] theorem FileRevision.unhide_hidden (r : FileRevision) (hidden : List String) :
    ({ r with hidden := hidden } : FileRevision).unhide = r.unhide := rfl

/-- Setting `hidden` is invisible once `hidden` is dropped. -/
@[simp] theorem setHidden_map_unhide (rows : List FileRevision) (revisionId : Int)
    (hidden : List String) :
    (setHidden rows revisionId hidden).map FileRevision.unhide = rows.map FileRevision.unhide :=
  setHidden_map FileRevision.unhide (fun _ _ => rfl) _ _ _

/-- **What one call does to the table**: nothing, or it appends one row with an empty `hidden`,
or it is an `update` and sets the `hidden` of the rows keyed by its `revision_id`. -/
theorem Call.run_rows (b : Backend) (c : Call) (st : State) :
    (c.run b st).rows = st.rows ∨ (∃ r, (c.run b st).rows = st.rows ++ [r] ∧ r.hidden = []) ∨
    ∃ input, c = .update input ∧
      (c.run b st).rows = setHidden st.rows input.revisionId input.hidden := by
  rcases Call.run_cases b c st with he | ⟨_, _, he⟩ | ⟨_, _, _, _, _, _, _, _, _, _, he⟩ |
      ⟨_, _, _, _, _, he⟩ | ⟨_, _, _, _, _, he⟩ | ⟨i, _, _, hc, -, -, -, he⟩
  · exact .inl he
  all_goals first
    | exact .inr (.inl ⟨_, he, rfl⟩)
    | exact .inr (.inr ⟨i, hc, he⟩)

theorem Call.run_prefix (b : Backend) (c : Call) (st : State) :
    st.rows.map FileRevision.unhide <+: (c.run b st).rows.map FileRevision.unhide := by
  rcases Call.run_rows b c st with he | ⟨r, he, -⟩ | ⟨i, -, he⟩
  · exact ⟨[], by rw [he, List.append_nil]⟩
  · exact ⟨[r.unhide], by rw [he, List.map_append, List.map_singleton]⟩
  · exact ⟨[], by rw [he, setHidden_map_unhide, List.append_nil]⟩

/-- A row's `hidden` after a call: the row was there before, or it is new and `hidden` is empty,
or the call is an `update` naming the row's `revision_id`, with that `hidden`. -/
theorem Call.run_hidden (b : Backend) (c : Call) (st : State) :
    ∀ r ∈ (c.run b st).rows, r ∈ st.rows ∨ r.hidden = [] ∨
      ∃ input, c = .update input ∧ input.revisionId = r.revisionId ∧ input.hidden = r.hidden := by
  intro r hr
  rcases Call.run_rows b c st with he | ⟨r', he, h'⟩ | ⟨i, hc, he⟩ <;> rw [he] at hr
  · exact .inl hr
  · rcases List.mem_append.1 hr with hr | hr
    · exact .inl hr
    · exact .inr (.inl (List.mem_singleton.1 hr ▸ h'))
  · obtain ⟨s, hs, rfl⟩ := List.mem_map.1 hr
    split_ifs with h
    · exact .inr (.inr ⟨i, hc, h.symm, rfl⟩)
    · exact .inl hs

/-- **The history is written once.**  Over any run of calls, from any database: the rows stored
before the run keep their place and every column but `hidden`, and the run only appends rows; a
row's `hidden` is the one it had before the run, or empty, or the list that an `update` call of
the run passed for the row's `revision_id`. -/
theorem runAll_history (calls : List (Backend × Call)) (st : State) :
    st.rows.map FileRevision.unhide <+: (Call.runAll calls st).rows.map FileRevision.unhide ∧
    ∀ r ∈ (Call.runAll calls st).rows, r ∈ st.rows ∨ r.hidden = [] ∨
      ∃ b input, (b, Call.update input) ∈ calls ∧ input.revisionId = r.revisionId ∧
        input.hidden = r.hidden := by
  induction calls generalizing st with
  | nil => exact ⟨List.prefix_refl _, fun r hr => .inl hr⟩
  | cons bc calls ih =>
    obtain ⟨b, c⟩ := bc
    obtain ⟨hp, hh⟩ := ih (c.run b st)
    refine ⟨(Call.run_prefix b c st).trans hp, fun r hr => ?_⟩
    rcases hh r hr with hr | hr | ⟨b', i, hm, hi⟩
    · rcases Call.run_hidden b c st r hr with hr | hr | ⟨i, rfl, hi⟩
      · exact .inl hr
      · exact .inr (.inl hr)
      · exact .inr (.inr ⟨b, i, List.mem_cons_self _ _, hi⟩)
    · exact .inr (.inl hr)
    · exact .inr (.inr ⟨b', i, List.mem_cons_of_mem _ hm, hi⟩)

/-! ## Reads do not see `hidden` -/

/-- What a call returns, seen through `f`, apart from the database it leaves: its panic message,
or its `Result` with `f` applied to an `Ok` value. -/
def Outcome.answer {α β : Type} (f : α → β) : Outcome α → Except String (Except Error β)
  | .panic msg _ => .error msg
  | .done result _ => .ok (result.map f)

/-- A filter that does not read `hidden` commutes with `unhide`. -/
theorem filter_map_unhide (p : FileRevision → Bool) (hp : ∀ r, p r.unhide = p r)
    (rows : List FileRevision) :
    (rows.map FileRevision.unhide).filter p = (rows.filter p).map FileRevision.unhide := by
  rw [List.filter_map, show p ∘ FileRevision.unhide = p from funext hp]

theorem latestOf_map_unhide : ∀ rows : List FileRevision,
    latestOf (rows.map FileRevision.unhide) = (latestOf rows).map FileRevision.unhide
  | [] => rfl
  | r :: rows => by
    simp only [List.map_cons, latestOf, latestOf_map_unhide rows]
    rcases latestOf rows with _ | s
    · rfl
    · by_cases h : r.revisionNumber ≤ s.revisionNumber <;>
        simp only [Option.map_some', FileRevision.unhide, h, if_true, if_false]

theorem getLatest_answer (siteId pageId fileId : Int) (st : State) :
    (getLatest siteId pageId fileId st).answer FileRevision.unhide =
      match latestOf ((st.rows.map FileRevision.unhide).filter
        (FileRevision.isOf siteId pageId fileId)) with
      | some r => .ok (.ok r)
      | none => .ok (.error .fileRevisionNotFound) := by
  rw [filter_map_unhide _ (fun _ => by rfl), latestOf_map_unhide]
  unfold getLatest
  cases latestOf (st.rows.filter (FileRevision.isOf siteId pageId fileId)) <;> rfl

theorem getOptional_answer (input : GetFileRevision) (st : State) :
    (getOptional input st).answer (Option.map FileRevision.unhide) =
      .ok (.ok ((st.rows.map FileRevision.unhide).find? fun r =>
        r.isOf input.siteId input.pageId input.fileId &&
          r.revisionNumber == input.revisionNumber)) := by
  rw [List.find?_map]
  rfl

theorem revisionCount_map_unhide (pageId fileId : Int) (rows : List FileRevision) :
    revisionCount pageId fileId (rows.map FileRevision.unhide) = revisionCount pageId fileId rows := by
  rw [revisionCount, filter_map_unhide _ (fun _ => by rfl), List.length_map, revisionCount]

theorem mergeSort_map_unhide (rows : List FileRevision) :
    (rows.map FileRevision.unhide).mergeSort byRevisionNumber =
      (rows.mergeSort byRevisionNumber).map FileRevision.unhide :=
  (List.map_mergeSort fun _ _ _ _ => by rfl).symm

theorem getRange_answer (input : GetFileRevisionRange) (st : State) :
    (getRange input st).answer (List.map FileRevision.unhide) =
      .ok (.ok (((rangeCandidates input (st.rows.map FileRevision.unhide)).mergeSort
        byRevisionNumber).take input.limit)) := by
  rw [rangeCandidates, filter_map_unhide _ (fun _ => by rfl), mergeSort_map_unhide, ← List.map_take]
  rfl

theorem count_answer_eq {st₁ st₂ : State} {pageId fileId : Int}
    (hc : revisionCount pageId fileId st₁.rows = revisionCount pageId fileId st₂.rows) :
    (count pageId fileId st₁).answer id = (count pageId fileId st₂).answer id := by
  simp only [count, hc]
  split_ifs
  · rfl
  · split <;> rfl

/-- What `get_latest`, `get_optional`, `count` and `get_range` answer, up to the `hidden` of the
rows they return. -/
structure Reads where
  latest : Except String (Except Error FileRevision)
  optional : Except String (Except Error (Option FileRevision))
  count : Except String (Except Error NonZeroI32)
  range : Except String (Except Error (List FileRevision))

/-- The four reads on a database. -/
def reads (siteId pageId fileId : Int) (query : GetFileRevision) (window : GetFileRevisionRange)
    (st : State) : Reads :=
  ⟨(getLatest siteId pageId fileId st).answer FileRevision.unhide,
    (getOptional query st).answer (Option.map FileRevision.unhide),
    (count pageId fileId st).answer id, (getRange window st).answer (List.map FileRevision.unhide)⟩

/-- **The reads see only the rows without `hidden`.** -/
theorem reads_eq_of_unhide (siteId pageId fileId : Int) (query : GetFileRevision)
    (window : GetFileRevisionRange) {st₁ st₂ : State}
    (h : st₁.rows.map FileRevision.unhide = st₂.rows.map FileRevision.unhide) :
    reads siteId pageId fileId query window st₁ = reads siteId pageId fileId query window st₂ := by
  have hc : revisionCount pageId fileId st₁.rows = revisionCount pageId fileId st₂.rows := by
    rw [← revisionCount_map_unhide, h, revisionCount_map_unhide]
  simp only [reads, Reads.mk.injEq, getLatest_answer, getOptional_answer, getRange_answer, h,
    count_answer_eq hc, and_self]

/-! ## Redactions -/

/-- Whether `update` writes: the latest row of the requested `(site, page, file)` exists and is
not the one named, a row has the named `revision_id`, and the database accepts the write. -/
def updateWrites (b : Backend) (input : UpdateFileRevision) (rows : List FileRevision) : Bool :=
  match latestOf (rows.filter (FileRevision.isOf input.siteId input.pageId input.fileId)),
    rows.find? (fun r => r.revisionId == input.revisionId) with
  | some latest, some row =>
    input.revisionId != latest.revisionId && (b.write { row with hidden := input.hidden }).toBool
  | _, _ => false

/-- Whether a call returned `Ok`. -/
def Outcome.isOk {α : Type} : Outcome α → Bool
  | .done (.ok _) _ => true
  | _ => false

theorem update_eq (b : Backend) (input : UpdateFileRevision) (st : State) :
    (update b input st).isOk = updateWrites b input st.rows ∧
    (update b input st).state = if updateWrites b input st.rows then
        { st with rows := setHidden st.rows input.revisionId input.hidden }
      else st := by
  rcases hl : latestOf (st.rows.filter (FileRevision.isOf input.siteId input.pageId input.fileId))
    with _ | latest
  · simp [update, Service.bind_apply, getLatest, updateWrites, hl, Outcome.state, Outcome.isOk]
  rcases hf : st.rows.find? (fun r => r.revisionId == input.revisionId) with _ | row
  · by_cases heq : input.revisionId = latest.revisionId
    · simp [update, Service.bind_apply, getLatest, updateWrites, hl, hf, heq.symm, Outcome.state,
        Outcome.isOk]
    · simp [update, Service.bind_apply, getLatest, updateWrites, updateHidden, hl, hf, heq,
        Outcome.state, Outcome.isOk]
  by_cases heq : input.revisionId = latest.revisionId
  · simp [update, Service.bind_apply, getLatest, updateWrites, hl, hf, heq.symm, Outcome.state,
      Outcome.isOk]
  rcases hw : b.write { row with hidden := input.hidden } with e | ⟨⟩ <;>
    simp [update, Service.bind_apply, getLatest, updateWrites, updateHidden, hl, hf, heq, hw,
      Outcome.state, Outcome.isOk, Except.toBool, setHidden]

/-- **What `update` does to the database**: it sets the `hidden` of the rows keyed by its
`revision_id` when it writes, and leaves the database as it was otherwise. -/
theorem Call.run_update (b : Backend) (input : UpdateFileRevision) (st : State) :
    (Call.update input).run b st = if updateWrites b input st.rows then
        { st with rows := setHidden st.rows input.revisionId input.hidden }
      else st :=
  (update_eq b input st).2

/-- Whether `update` writes does not depend on `hidden`: the guard reads the latest row's id, and
the write is of the named row with its `hidden` replaced. -/
theorem updateWrites_map_unhide (b : Backend) (input : UpdateFileRevision)
    (rows : List FileRevision) :
    updateWrites b input (rows.map FileRevision.unhide) = updateWrites b input rows := by
  have hf : (rows.map FileRevision.unhide).find? (fun r => r.revisionId == input.revisionId) =
      (rows.find? fun r => r.revisionId == input.revisionId).map FileRevision.unhide :=
    List.find?_map _ _
  unfold updateWrites
  rw [filter_map_unhide _ (fun _ => by rfl), latestOf_map_unhide, hf]
  generalize latestOf (rows.filter (FileRevision.isOf input.siteId input.pageId input.fileId)) = l
  generalize rows.find? (fun r => r.revisionId == input.revisionId) = o
  cases l <;> cases o <;> rfl

theorem updateWrites_setHidden (b : Backend) (input : UpdateFileRevision)
    (rows : List FileRevision) (revisionId : Int) (hidden : List String) :
    updateWrites b input (setHidden rows revisionId hidden) = updateWrites b input rows := by
  rw [← updateWrites_map_unhide, setHidden_map_unhide, updateWrites_map_unhide]

theorem setHidden_comm (rows : List FileRevision) {id₁ id₂ : Int} (hne : id₁ ≠ id₂)
    (hidden₁ hidden₂ : List String) :
    setHidden (setHidden rows id₁ hidden₁) id₂ hidden₂ =
      setHidden (setHidden rows id₂ hidden₂) id₁ hidden₁ := by
  simp only [setHidden, List.map_map]
  refine List.map_congr_left fun r _ => ?_
  by_cases e₁ : r.revisionId = id₁ <;> by_cases e₂ : r.revisionId = id₂
  · exact absurd (e₁.symm.trans e₂) hne
  all_goals simp [e₁, e₂, hne, hne.symm]

theorem setHidden_setHidden (rows : List FileRevision) (revisionId : Int)
    (hidden₁ hidden₂ : List String) :
    setHidden (setHidden rows revisionId hidden₁) revisionId hidden₂ =
      setHidden rows revisionId hidden₂ := by
  simp only [setHidden, List.map_map]
  refine List.map_congr_left fun r _ => ?_
  by_cases e : r.revisionId = revisionId <;> simp [e]

/-- An `update` changes only `hidden`. -/
theorem Call.run_update_map_unhide (b : Backend) (input : UpdateFileRevision) (st : State) :
    ((Call.update input).run b st).rows.map FileRevision.unhide = st.rows.map FileRevision.unhide := by
  rw [Call.run_update]
  split_ifs
  exacts [setHidden_map_unhide _ _ _, rfl]

/-- The first revisions of files 1, 2 and 3, on page 1 of site 1: revision ids 1, 2 and 3. -/
def threeFiles : State :=
  Call.runAll [(Backend.allOk, .createFirst (firstPng 1)), (Backend.allOk, .createFirst (firstPng 2)),
    (Backend.allOk, .createFirst (firstPng 3))] ⟨[], []⟩

/-- An `update` asked about file 3 of page 1, naming `revisionId`. -/
def hideOnFile3 (revisionId : Int) (hidden : List String) : UpdateFileRevision :=
  ⟨1, 1, 3, revisionId, 1, hidden⟩

/-- Redactions of two revisions commute: two `update` calls naming different revision ids leave
the same database in either order. -/
theorem Call.run_update_comm (b₁ b₂ : Backend) (u₁ u₂ : UpdateFileRevision)
    (hne : u₁.revisionId ≠ u₂.revisionId) (st : State) :
    (Call.update u₂).run b₂ ((Call.update u₁).run b₁ st) =
      (Call.update u₁).run b₁ ((Call.update u₂).run b₂ st) := by
  simp only [Call.run_update]
  by_cases A₁ : updateWrites b₁ u₁ st.rows <;> by_cases A₂ : updateWrites b₂ u₂ st.rows <;>
    simp [A₁, A₂, updateWrites_setHidden, setHidden_comm _ hne]

/-- Of two redactions of one revision the later decides: when the second `update` succeeds on
the database the first one found, the two leave what the second leaves alone; when it fails, what
the first leaves. -/
theorem Call.run_update_last_wins (b₁ b₂ : Backend) (u₁ u₂ : UpdateFileRevision)
    (hid : u₁.revisionId = u₂.revisionId) (st : State) :
    (Call.update u₂).run b₂ ((Call.update u₁).run b₁ st) =
      if (Deepwell.update b₂ u₂ st).isOk then (Call.update u₂).run b₂ st
      else (Call.update u₁).run b₁ st := by
  rw [(update_eq b₂ u₂ st).1]
  simp only [Call.run_update]
  by_cases A₁ : updateWrites b₁ u₁ st.rows <;> by_cases A₂ : updateWrites b₂ u₂ st.rows <;>
    simp [A₁, A₂, updateWrites_setHidden, hid, setHidden_setHidden]

example : (Call.update (hideOnFile3 1 [])).run Backend.allOk
    ((Call.update (hideOnFile3 1 ["spam"])).run Backend.allOk threeFiles) = threeFiles := by
  decide

end Deepwell
