import Wikijump.Deepwell.Changes

/-!
# Runs on one file

The history of one file as its callers build it: a successful `create_first`, then requests
(`create`, `create_tombstone`, `create_resurrection`), each made on the page of the file's most
recently inserted row, with `previous` as `get_latest` returns it on that page.

* `create_stores_revision_zero` — `create` returns `next_revision_number(previous)` but stores
  `revision_number = 0`, so the second revision of a file repeats the first one's number.
* `moved_file_count` — `count` and `get_range` filter on `page_id`: after a move they see only
  the rows stored on the new page.
* `file_run_page_queries` — what they do return on the file's current page: its rows there.
* `lifecycle_run_numbering` — with `create_tombstone` and `create_resurrection` only, the file's
  numbers are `0, 1, …, N - 1` in insertion order (below `2^31` revisions, where `i32` wraps), and
  `get_latest` returns the most recently inserted row.
* `Call.panics_eq` — the writers panic only in `next_revision_number`'s assertions;
  `request_after_getLatest_never_panics` — **a request made with the row `get_latest` returns for
  its page and file never panics**, in a release build and, below `i32::MAX`, in a build with
  overflow checks (`nextRevisionNumberChecked`).
-/

set_option autoImplicit false

namespace Deepwell

/-- A request on a file after its first revision: which writer, with its own arguments. -/
inductive Request where
  | create (userId : Int) (comments : String) (body : CreateFileRevisionBody)
  | createTombstone (userId : Int) (comments : String)
  | createResurrection (userId newPageId : Int) (newName comments : String)

/-- The call a request makes on file `fileId` of site `siteId`, on page `pageId`, after
`previous`. -/
def Request.call (siteId fileId pageId : Int) (previous : FileRevision) : Request → Call
  | .create userId comments body =>
    .create ⟨siteId, pageId, fileId, userId, comments, body⟩ previous
  | .createTombstone userId comments =>
    .createTombstone ⟨siteId, pageId, fileId, userId, comments⟩ previous
  | .createResurrection userId newPageId newName comments =>
    .createResurrection ⟨siteId, pageId, fileId, userId, newPageId, newName, comments⟩ previous

def fileRows (fileId : Int) (rows : List FileRevision) : List FileRevision :=
  rows.filter fun r => r.fileId == fileId

def currentPage (fileId : Int) (rows : List FileRevision) : Option Int :=
  (fileRows fileId rows).getLast?.map (·.pageId)

/-- The tables reached on one file: one successful `create_first` on a table without rows of the
file, then requests that `ok` admits, each on the file's current page with `previous` as
`get_latest` returns it there.  Every call has collaborators of its own. -/
inductive FileRun (ok : Request → Prop) (siteId fileId : Int) : State → Prop where
  | first (st : State) {st' : State} (b : Backend) (input : CreateFirstFileRevision)
      (out : CreateFirstFileRevisionOutput) :
      fileRows fileId st.rows = [] → input.siteId = siteId → input.fileId = fileId →
      createFirst b input st = .done (.ok out) st' → FileRun ok siteId fileId st'
  | step {st : State} {pageId : Int} {previous : FileRevision} (b : Backend) (req : Request) :
      FileRun ok siteId fileId st → ok req → currentPage fileId st.rows = some pageId →
      getLatest siteId pageId fileId st = .done (.ok previous) st →
      FileRun ok siteId fileId ((req.call siteId fileId pageId previous).run b st)

def anyRequest : Request → Prop := fun _ => True

/-- The requests of a file's lifecycle: a tombstone or a resurrection, no `create`. -/
def Request.IsLifecycle : Request → Prop
  | .create _ _ _ => False
  | .createTombstone _ _ => True
  | .createResurrection _ _ _ _ => True

/-! ## One request -/

/-- **What one request does to the table**: nothing, or it appends one row of the file and the
site, having checked that `previous` is of the file and of the page the request names; `create`
numbers the row `0`, the other two `previous.revision_number + 1` (wrapping). -/
theorem Request.run_cases (b : Backend) (req : Request) (siteId fileId pageId : Int)
    (previous : FileRevision) (st : State) :
    ((req.call siteId fileId pageId previous).run b st).rows = st.rows ∨
    ∃ r, ((req.call siteId fileId pageId previous).run b st).rows = st.rows ++ [r] ∧
      previous.fileId = fileId ∧ previous.pageId = pageId ∧ r.fileId = fileId ∧ r.siteId = siteId ∧
      ((∃ userId comments body, req = .create userId comments body) ∧ r.revisionNumber = 0 ∨
        r.revisionNumber = wrappingAdd previous.revisionNumber 1) := by
  rcases Call.run_cases b (req.call siteId fileId pageId previous) st with he | ⟨i, hc, -⟩ |
    ⟨i, p, m, ch, hc, -, -, -, hf, hp, he⟩ | ⟨i, p, hc, hf, hp, he⟩ | ⟨i, p, hc, hf, hp, he⟩ |
    ⟨i, _, _, hc, -⟩
  · exact .inl he
  · cases req <;> cases hc
  · cases req <;> cases hc
    exact .inr ⟨_, he, hf, hp, rfl, rfl, .inl ⟨⟨_, _, _, rfl⟩, rfl⟩⟩
  · cases req <;> cases hc
    exact .inr ⟨_, he, hf, hp, rfl, rfl, .inr rfl⟩
  · cases req <;> cases hc
    exact .inr ⟨_, he, hf, hp, rfl, rfl, .inr rfl⟩
  · cases req <;> cases hc

theorem Request.run_lifecycle {req : Request} (hreq : req.IsLifecycle) (b : Backend)
    (siteId fileId pageId : Int) (previous : FileRevision) (st : State) :
    ((req.call siteId fileId pageId previous).run b st).rows = st.rows ∨
    ∃ r, ((req.call siteId fileId pageId previous).run b st).rows = st.rows ++ [r] ∧
      r.fileId = fileId ∧ r.siteId = siteId ∧
      r.revisionNumber = wrappingAdd previous.revisionNumber 1 := by
  rcases Request.run_cases b req siteId fileId pageId previous st with he |
    ⟨r, he, -, -, hf, hs, ⟨⟨_, _, _, rfl⟩, -⟩ | hn⟩
  · exact .inl he
  · exact hreq.elim
  · exact .inr ⟨r, he, hf, hs, hn⟩

theorem fileRows_append_of_fileId {fileId : Int} (rows : List FileRevision) (r : FileRevision)
    (h : r.fileId = fileId) : fileRows fileId (rows ++ [r]) = fileRows fileId rows ++ [r] := by
  simp [fileRows, h]

/-- `get_latest` returns a row of the file, on the page asked, numbered at least as high as every
row of the file on that site and page. -/
theorem getLatest_spec {siteId pageId fileId : Int} {st st' : State} {previous : FileRevision}
    (h : getLatest siteId pageId fileId st = .done (.ok previous) st') :
    previous ∈ fileRows fileId st.rows ∧ previous.pageId = pageId ∧
      ∀ r ∈ fileRows fileId st.rows, r.siteId = siteId → r.pageId = pageId →
        r.revisionNumber ≤ previous.revisionNumber := by
  rcases getLatest_cases siteId pageId fileId st with ⟨r, hr, hlo⟩ | hr <;> rw [hr] at h <;> cases h
  obtain ⟨hm, hmax⟩ := latestOf_spec hlo
  simp only [fileRows, FileRevision.isOf, List.mem_filter, Bool.and_eq_true, beq_iff_eq] at *
  exact ⟨⟨hm.1, hm.2.2⟩, hm.2.1.2, fun s hs h1 h2 => hmax s ⟨hs.1, ⟨h1, h2⟩, hs.2⟩⟩

theorem createFirst_fileRows {fileId : Int} {b : Backend} {input : CreateFirstFileRevision}
    {st st' : State} {out : CreateFirstFileRevisionOutput} (h0 : fileRows fileId st.rows = [])
    (hf : input.fileId = fileId) (h : createFirst b input st = .done (.ok out) st') :
    fileRows fileId st'.rows = [(firstRow input).withId st.rows.length] := by
  rcases createFirst_cases b input st with ⟨e, st₂, h', -⟩ | ⟨slug, -, h'⟩ <;> rw [h'] at h <;>
    cases h
  rw [fileRows_append_of_fileId _ _ hf, h0]; rfl

theorem revisionCount_eq (pageId fileId : Int) (rows : List FileRevision) :
    revisionCount pageId fileId rows = ((fileRows fileId rows).filter (·.pageId == pageId)).length := by
  rw [revisionCount, fileRows, List.filter_filter]; rfl

theorem mem_of_currentPage {fileId pageId : Int} {rows : List FileRevision}
    (h : currentPage fileId rows = some pageId) :
    ∃ last, (fileRows fileId rows).getLast? = some last ∧ last.pageId = pageId := by
  simpa [currentPage] using h

/-! ## The stored number of `create` -/

/-- The first revision of the design's scenario: `a.png` on page 10 of site 1, file 5. -/
def scenarioFirst : CreateFirstFileRevision :=
  ⟨10, 1, 5, 1, "a.png", [0], 16, "image/png", "", ""⟩

def renameBody : CreateFileRevisionBody := ⟨.unset, .set "b.png", .unset, .unset⟩

/-- `create_first`, then `create` renaming the file: `create` returns revision number 1 and
stores 0, the number `create_first` stored. -/
theorem create_stores_revision_zero :
    ∃ st₁ previous st₂, (createFirst Backend.allOk scenarioFirst ⟨[], []⟩).state = st₁ ∧
      getLatest 1 10 5 st₁ = .done (.ok previous) st₁ ∧
      create Backend.allOk ⟨1, 10, 5, 1, "", renameBody⟩ previous st₁ =
        .done (.ok (some ⟨2, 1⟩)) st₂ ∧
      FileRun anyRequest 1 5 st₂ ∧ (fileRows 5 st₂.rows).map (·.revisionNumber) = [0, 0] :=
  ⟨_, _, _, rfl, rfl, rfl, .step Backend.allOk (.create 1 "" renameBody)
    (.first ⟨[], []⟩ Backend.allOk scenarioFirst _ rfl rfl rfl rfl) trivial rfl rfl, rfl⟩

/-! ## Page-scoped queries -/

def moveBody : CreateFileRevisionBody := ⟨.set 11, .unset, .unset, .unset⟩

/-- After `create` moves file 5 from page 10 to page 11, the file has two rows but `count` on its
current page counts one, and `get_range` from revision 0 returns one. -/
theorem moved_file_count :
    ∃ st, FileRun anyRequest 1 5 st ∧ currentPage 5 st.rows = some 11 ∧
      (fileRows 5 st.rows).length = 2 ∧
      (∃ c : NonZeroI32, count 11 5 st = .done (.ok c) st ∧ c.get = 1) ∧
      ∃ L, getRange ⟨11, 5, 0, .after, 10⟩ st = .done (.ok L) st ∧ L.length = 1 := by
  refine ⟨_, .step Backend.allOk (.create 1 "" moveBody)
    (.first ⟨[], []⟩ Backend.allOk scenarioFirst _ rfl rfl rfl rfl) trivial rfl rfl, rfl, rfl,
    ⟨⟨1, by decide⟩, rfl, rfl⟩, ?_⟩
  obtain ⟨L, hL, hs⟩ := getRange_spec ⟨11, 5, 0, .after, 10⟩ _
  exact ⟨L, hL, by rw [hs.2.1]; rfl⟩

/-- The rows of the file are of the site and numbered from `0` to below their count. -/
def NumbersBelowCount (siteId fileId : Int) (rows : List FileRevision) : Prop :=
  ∀ r ∈ fileRows fileId rows, r.siteId = siteId ∧ 0 ≤ r.revisionNumber ∧
    r.revisionNumber < (fileRows fileId rows).length

theorem FileRun.numbersBelowCount {ok : Request → Prop} {siteId fileId : Int} {st : State}
    (h : FileRun ok siteId fileId st) :
    ((fileRows fileId st.rows).length : Int) ≤ I32_MAX → NumbersBelowCount siteId fileId st.rows := by
  induction h with
  | first st b input out h0 hs hf h =>
    intro _
    rw [NumbersBelowCount, createFirst_fileRows h0 hf h]
    simpa [FileRevision.withId, firstRow] using hs
  | @step st₀ _ _ b req _ _ hp hl ih =>
    intro hn
    rcases Request.run_cases b req siteId fileId _ _ _ with he | ⟨r, he, -, -, hrf, hrs, hnum⟩
    · rw [he] at hn ⊢; exact ih hn
    rw [NumbersBelowCount, he, fileRows_append_of_fileId _ _ hrf]
    rw [he, fileRows_append_of_fileId _ _ hrf, List.length_append, List.length_singleton] at hn
    have inv := ih (by omega)
    obtain ⟨h0, hlt⟩ := (inv _ (getLatest_spec hl).1).2
    have hr : 0 ≤ r.revisionNumber ∧ r.revisionNumber ≤ (fileRows fileId st₀.rows).length := by
      rcases hnum with ⟨-, h⟩ | h <;> rw [h]
      · omega
      · rw [wrappingAdd_one h0 (by omega)]; omega
    intro x hx
    rw [List.length_append, List.length_singleton]
    rcases List.mem_append.1 hx with hx | hx
    · have := inv x hx; omega
    · rw [List.mem_singleton.1 hx]; exact ⟨hrs, by omega⟩

/-- **What `count` and `get_range` return on the file's current page**: below `2^31` revisions,
`count` returns the number of the file's rows on that page, and `get_range` from revision `0`
onwards, with a limit of at least that number, returns those rows in ascending order. -/
theorem file_run_page_queries {ok : Request → Prop} {siteId fileId pageId : Int} {st : State}
    (h : FileRun ok siteId fileId st) (hp : currentPage fileId st.rows = some pageId)
    (hn : ((fileRows fileId st.rows).length : Int) ≤ I32_MAX) (limit : Nat)
    (hk : revisionCount pageId fileId st.rows ≤ limit) :
    (∃ c : NonZeroI32, count pageId fileId st = .done (.ok c) st ∧
      c.get = revisionCount pageId fileId st.rows) ∧
    ∃ L, getRange ⟨pageId, fileId, 0, .after, limit⟩ st = .done (.ok L) st ∧
      L.Perm (st.rows.filter (FileRevision.onPage pageId fileId)) ∧
      L.Pairwise fun a b => a.revisionNumber ≤ b.revisionNumber := by
  have inv := h.numbersBelowCount hn
  obtain ⟨last, hlast, hlp⟩ := mem_of_currentPage hp
  have hpos : 0 < revisionCount pageId fileId st.rows := by
    rw [revisionCount_eq]
    exact List.length_pos_of_mem
      (List.mem_filter.2 ⟨List.mem_of_getLast?_eq_some hlast, by simpa using hlp⟩)
  have hle : revisionCount pageId fileId st.rows ≤ (fileRows fileId st.rows).length := by
    rw [revisionCount_eq]; exact List.length_filter_le _ _
  refine ⟨(count_spec pageId fileId st).1 hpos (by omega), ?_⟩
  obtain ⟨L, hL, hs⟩ := getRange_spec ⟨pageId, fileId, 0, .after, limit⟩ st
  have hT : rangeCandidates ⟨pageId, fileId, 0, .after, limit⟩ st.rows =
      st.rows.filter (FileRevision.onPage pageId fileId) := by
    refine List.filter_congr fun r hr => ?_
    by_cases ho : r.onPage pageId fileId = true
    · have hf : r ∈ fileRows fileId st.rows := by
        simp only [FileRevision.onPage, Bool.and_eq_true, beq_iff_eq] at ho
        simp [fileRows, hr, ho.2]
      simp [ho, revisionCondition, rangeAnchor, (inv r hf).2.1]
    · simp [ho]
  rw [hT] at hs
  exact ⟨L, hL, hs.perm_of_le hk, hs.1⟩

/-- The moved file of `moved_file_count`: on page 11, `count` and `get_range` see the one row
stored there. -/
theorem file_run_page_queries_moved :
    ∃ st, FileRun anyRequest 1 5 st ∧
      (∃ c : NonZeroI32, count 11 5 st = .done (.ok c) st ∧ c.get = revisionCount 11 5 st.rows) ∧
      ∃ L, getRange ⟨11, 5, 0, .after, 10⟩ st = .done (.ok L) st ∧
        L.Perm (st.rows.filter (FileRevision.onPage 11 5)) ∧
        L.Pairwise fun a b => a.revisionNumber ≤ b.revisionNumber :=
  have h := FileRun.step Backend.allOk (.create 1 "" moveBody)
    (.first ⟨[], []⟩ Backend.allOk scenarioFirst _ rfl rfl rfl rfl) trivial rfl rfl
  ⟨_, h, file_run_page_queries h rfl (by decide) 10 (by decide)⟩

/-! ## The window of `get_range` -/

/-- **`get_range` returns the lowest-numbered rows of its window.**  Let `S` be the rows of the
page and file, `a'` the anchor (`i32::MAX` for a negative one) and `T` the rows of `S` numbered at
most `a'` (`Before`) or at least `a'` (`After`): `get_range` returns, in ascending order, the
`min(limit, |T|)` lowest-numbered rows of `T` — after the anchor the nearest ones, before it the
oldest. -/
theorem get_range_lowest_of_window (input : GetFileRevisionRange) (st : State) :
    let a' := if 0 ≤ input.revisionNumber then input.revisionNumber else I32_MAX
    let T := (st.rows.filter (FileRevision.onPage input.pageId input.fileId)).filter fun r =>
      match input.revisionDirection with
      | .before => decide (r.revisionNumber ≤ a')
      | .after => decide (a' ≤ r.revisionNumber)
    ∃ L, getRange input st = .done (.ok L) st ∧ IsLowestSorted input.limit T L := by
  intro a' T
  obtain ⟨L, hL, hs⟩ := getRange_spec input st
  have hT : rangeCandidates input st.rows = T := by
    simp only [T, a', rangeCandidates, List.filter_filter]
    exact List.filter_congr fun r _ => by
      cases input.revisionDirection <;> simp [revisionCondition, rangeAnchor, Bool.and_comm]
  exact ⟨L, hL, hT ▸ hs⟩

def tombstonedScenario : State :=
  (Call.createTombstone ⟨1, 10, 5, 1, ""⟩ ((firstRow scenarioFirst).withId 0)).run Backend.allOk
    ((Call.createFirst scenarioFirst).run Backend.allOk ⟨[], []⟩)

/-- `get_range` before revision 1 with limit 1 returns revision 0, although revision 1 is in the
window and nearer the anchor. -/
theorem get_range_before_keeps_oldest :
    ∃ st, Reachable anyCall st ∧ ∃ L, getRange ⟨10, 5, 1, .before, 1⟩ st = .done (.ok L) st ∧
      L.map (·.revisionNumber) = [0] ∧
      ∃ r ∈ rangeCandidates ⟨10, 5, 1, .before, 1⟩ st.rows, r.revisionNumber = 1 := by
  obtain ⟨L, hL, hs⟩ := getRange_spec ⟨10, 5, 1, .before, 1⟩ tombstonedScenario
  have h0 := hs.mem_of_lowest Nat.one_pos
    (show (firstRow scenarioFirst).withId 0 ∈ rangeCandidates _ tombstonedScenario.rows by decide)
    (by decide)
  obtain ⟨x, rfl⟩ := List.length_eq_one.1 (hs.2.1.trans (by decide))
  obtain rfl := List.mem_singleton.1 h0
  exact ⟨_, .step Backend.allOk
    (.createTombstone ⟨1, 10, 5, 1, ""⟩ ((firstRow scenarioFirst).withId 0))
    (.step Backend.allOk (.createFirst scenarioFirst) .empty trivial) trivial, _, hL, rfl,
    by decide⟩

/-! ## Numbering without `create` -/

/-- The rows of the file are of the site and numbered `0, 1, …, N - 1` in insertion order. -/
def Numbered (siteId fileId : Int) (rows : List FileRevision) : Prop :=
  (∀ r ∈ fileRows fileId rows, r.siteId = siteId) ∧
    (fileRows fileId rows).map (·.revisionNumber) =
      (List.range (fileRows fileId rows).length).map fun i : Nat => (i : Int)

section Numbered

variable {siteId fileId : Int} {rows : List FileRevision}

theorem Numbered.bounds (h : Numbered siteId fileId rows) {r : FileRevision}
    (hr : r ∈ fileRows fileId rows) :
    0 ≤ r.revisionNumber ∧ r.revisionNumber < (fileRows fileId rows).length := by
  have hm := List.mem_map_of_mem (·.revisionNumber) hr
  rw [h.2] at hm
  obtain ⟨i, hi, he⟩ := List.mem_map.1 hm
  have := List.mem_range.1 hi
  simp only at he
  omega

theorem Numbered.last (h : Numbered siteId fileId rows) {last : FileRevision}
    (hl : (fileRows fileId rows).getLast? = some last) :
    last.revisionNumber + 1 = (fileRows fileId rows).length := by
  have hm := congrArg List.getLast? h.2
  rw [List.getLast?_map, List.getLast?_map, hl, List.getLast?_range] at hm
  split_ifs at hm <;> simp at hm
  omega

theorem Numbered.inj (h : Numbered siteId fileId rows) {r s : FileRevision}
    (hr : r ∈ fileRows fileId rows) (hs : s ∈ fileRows fileId rows)
    (he : r.revisionNumber = s.revisionNumber) : r = s :=
  List.inj_on_of_nodup_map
    (by rw [h.2]; exact (List.nodup_range _).map fun _ _ h => Int.ofNat.inj h) hr hs he

theorem Numbered.append_next (h : Numbered siteId fileId rows) {r : FileRevision}
    (hf : r.fileId = fileId) (hs : r.siteId = siteId)
    (hn : r.revisionNumber = (fileRows fileId rows).length) :
    Numbered siteId fileId (rows ++ [r]) := by
  rw [Numbered, fileRows_append_of_fileId _ _ hf, List.length_append, List.length_singleton,
    List.map_append, h.2, List.range_succ, List.map_append]
  refine ⟨fun x hx => ?_, by simp [hn]⟩
  rcases List.mem_append.1 hx with hx | hx
  · exact h.1 x hx
  · rw [List.mem_singleton.1 hx]; exact hs

end Numbered

/-- **A tombstone or a resurrection after the file's last row keeps the table numbered**, below
`2^31` rows. -/
theorem Numbered.write_last {siteId fileId pageId : Int} {st : State} {last : FileRevision}
    (h : Numbered siteId fileId st.rows) (hl : (fileRows fileId st.rows).getLast? = some last)
    (hn : ((fileRows fileId st.rows).length : Int) ≤ I32_MAX) {req : Request}
    (hreq : req.IsLifecycle) (b : Backend) :
    Numbered siteId fileId ((req.call siteId fileId pageId last).run b st).rows := by
  rcases Request.run_lifecycle hreq b siteId fileId pageId last st with he | ⟨r, he, hf, hs, hr⟩
  · rwa [he]
  have h2 := h.bounds (List.mem_of_getLast?_eq_some hl)
  have h3 := h.last hl
  rw [he]
  exact h.append_next hf hs (by rw [hr, wrappingAdd_one h2.1 (by omega)]; omega)

theorem Numbered.getLatest_last {siteId fileId : Int} {st : State} {last : FileRevision}
    (h : Numbered siteId fileId st.rows) (hl : (fileRows fileId st.rows).getLast? = some last) :
    getLatest siteId last.pageId fileId st = .done (.ok last) st := by
  have hmem := List.mem_of_getLast?_eq_some hl
  have hin : last ∈ st.rows.filter (FileRevision.isOf siteId last.pageId fileId) := by
    simp only [fileRows, List.mem_filter, beq_iff_eq] at hmem
    simp [FileRevision.isOf, hmem, h.1 last (List.mem_of_getLast?_eq_some hl)]
  rcases hlo : latestOf (st.rows.filter (FileRevision.isOf siteId last.pageId fileId)) with _ | r
  · rw [latestOf_eq_none.1 hlo] at hin; cases hin
  obtain ⟨hrm, hmax⟩ := latestOf_spec hlo
  have hrf : r ∈ fileRows fileId st.rows := by
    simp only [FileRevision.isOf, List.mem_filter, Bool.and_eq_true] at hrm
    simp [fileRows, hrm.1, hrm.2.2]
  have h1 := hmax last hin
  have h2 := (h.bounds hrf).2
  have h3 := h.last hl
  obtain rfl : r = last := h.inj hrf hmem (by omega)
  unfold getLatest
  rw [hlo]

theorem FileRun.numbered {siteId fileId : Int} {st : State}
    (h : FileRun Request.IsLifecycle siteId fileId st) :
    ((fileRows fileId st.rows).length : Int) ≤ I32_MAX → Numbered siteId fileId st.rows := by
  induction h with
  | first st b input out h0 hs hf h =>
    intro _
    rw [Numbered, createFirst_fileRows h0 hf h]
    exact ⟨by simpa [FileRevision.withId, firstRow] using hs, rfl⟩
  | @step st₀ pageId previous b req _ hok hp hl ih =>
    intro hn
    rcases Request.run_lifecycle hok b siteId fileId pageId previous st₀ with he | ⟨r, he, hrf, -⟩
    · rw [he] at hn ⊢; exact ih hn
    rw [he, fileRows_append_of_fileId _ _ hrf, List.length_append, List.length_singleton] at hn
    have inv := ih (by omega)
    obtain ⟨last, hlast, rfl⟩ := mem_of_currentPage hp
    rw [inv.getLatest_last hlast] at hl
    cases hl
    exact inv.write_last hlast (by omega) hok b

/-- **Without `create`, a file's revisions are numbered `0, 1, …, N - 1`, and `get_latest` returns
the last one.**  In every run on the file made of `create_first` and then `create_tombstone` and
`create_resurrection` calls, each with `previous` as `get_latest` returns it on the file's current
page, below `2^31` revisions: the file's numbers in insertion order are `0, 1, …, N - 1`, and
`get_latest` on the page of its most recently inserted row returns that row. -/
theorem lifecycle_run_numbering {siteId fileId : Int} {st : State}
    (h : FileRun Request.IsLifecycle siteId fileId st)
    (hn : ((fileRows fileId st.rows).length : Int) ≤ I32_MAX) :
    (fileRows fileId st.rows).map (·.revisionNumber) =
        (List.range (fileRows fileId st.rows).length).map (fun i : Nat => (i : Int)) ∧
      ∀ last, (fileRows fileId st.rows).getLast? = some last →
        getLatest siteId last.pageId fileId st = .done (.ok last) st :=
  have inv := h.numbered hn
  ⟨inv.2, fun _ hl => inv.getLatest_last hl⟩

/-- The scenario's file deleted, then restored to page 11 as `c.png`. -/
theorem lifecycle_run_numbering_restored :
    ∃ st, FileRun Request.IsLifecycle 1 5 st ∧
      (fileRows 5 st.rows).map (·.revisionNumber) =
        (List.range (fileRows 5 st.rows).length).map (fun i : Nat => (i : Int)) ∧
      ∀ last, (fileRows 5 st.rows).getLast? = some last →
        getLatest 1 last.pageId 5 st = .done (.ok last) st :=
  have h := FileRun.step Backend.allOk (.createResurrection 1 11 "c.png" "")
    (.step Backend.allOk (.createTombstone 1 "")
      (.first ⟨[], []⟩ Backend.allOk scenarioFirst _ rfl rfl rfl rfl) trivial rfl rfl)
    trivial rfl rfl
  ⟨_, h, lifecycle_run_numbering h (by decide)⟩

/-! ## No panic after `get_latest` -/

def Outcome.isPanic {α : Type} : Outcome α → Bool
  | .panic _ _ => true
  | .done _ _ => false

def Call.panics (b : Backend) : Call → State → Bool
  | .createFirst input, st => (Deepwell.createFirst b input st).isPanic
  | .create input previous, st => (Deepwell.create b input previous st).isPanic
  | .createTombstone input previous, st =>
    (Deepwell.createTombstone b input previous st).isPanic
  | .createResurrection input previous, st =>
    (Deepwell.createResurrection b input previous st).isPanic
  | .update input, st => (Deepwell.update b input st).isPanic

/-- **A call panics only in `next_revision_number`'s assertions**: `create_first` and `update`
never panic, and `create`, `create_tombstone` and `create_resurrection` panic exactly when
`previous` is of another file or page than the one their input names. -/
theorem Call.panics_eq (b : Backend) (c : Call) (st : State) :
    c.panics b st = match c with
      | .createFirst _ | .update _ => false
      | .create input previous => !(nextRevisionNumber previous input.pageId input.fileId).toBool
      | .createTombstone input previous =>
        !(nextRevisionNumber previous input.pageId input.fileId).toBool
      | .createResurrection input previous =>
        !(nextRevisionNumber previous input.pageId input.fileId).toBool := by
  cases c with
  | createFirst input =>
    rcases createFirst_cases b input st with ⟨e, st', h, -⟩ | ⟨slug, -, h⟩ <;>
      simp [Call.panics, h, Outcome.isPanic]
  | update input =>
    rcases update_cases b input st with ⟨e, h⟩ | ⟨latest, row, -, -, -, h⟩ <;>
      simp [Call.panics, h, Outcome.isPanic]
  | create input previous =>
    dsimp only
    rcases hn : nextRevisionNumber previous input.pageId input.fileId with msg | n
    · simp only [Call.panics, Deepwell.create, hn, Service.bind_apply, Service.ofPanic_error]
      rfl
    rcases hm : mergeBody input.pageId previous input.body with ⟨m, changes⟩
    rcases create_cases b input previous st hm with ⟨msg, hn', -⟩ |
      ⟨-, -, ⟨-, h⟩ | ⟨-, e, -, h⟩ | ⟨-, -, e, st', h, -⟩ | ⟨-, -, slug, -, h⟩⟩
    · exact absurd (hn.symm.trans hn') (by simp)
    all_goals simp [Call.panics, h, Outcome.isPanic, Except.toBool]
  | createTombstone input previous =>
    dsimp only
    rcases hn : nextRevisionNumber previous input.pageId input.fileId with msg | n
    · simp only [Call.panics, Deepwell.createTombstone, hn, Service.bind_apply,
        Service.ofPanic_error]
      rfl
    rcases createTombstone_cases b input previous st with ⟨msg, hn', -⟩ | ⟨e, st', h, -⟩ |
      ⟨-, -, slug, -, h⟩
    · exact absurd (hn.symm.trans hn') (by simp)
    all_goals simp [Call.panics, h, Outcome.isPanic, Except.toBool]
  | createResurrection input previous =>
    dsimp only
    rcases hn : nextRevisionNumber previous input.pageId input.fileId with msg | n
    · simp only [Call.panics, Deepwell.createResurrection, hn, Service.bind_apply,
        Service.ofPanic_error]
      rfl
    rcases createResurrection_cases b input previous st with ⟨msg, hn', -⟩ | ⟨e, st', h, -⟩ |
      ⟨-, -, slug, -, h⟩
    · exact absurd (hn.symm.trans hn') (by simp)
    all_goals simp [Call.panics, h, Outcome.isPanic, Except.toBool]

/-- **A request made after `get_latest` never panics.**  Whatever the request and the
collaborators, when `previous` is the row `get_latest` returned for the page and the file that the
request names, both assertions of `next_revision_number` hold; and when that row is numbered below
`i32::MAX`, the addition does not overflow either, so a build with overflow checks does not panic
there. -/
theorem request_after_getLatest_never_panics (b : Backend) (req : Request)
    {siteId pageId fileId : Int} {previous : FileRevision} {st : State}
    (hl : getLatest siteId pageId fileId st = .done (.ok previous) st)
    (hlt : previous.revisionNumber < I32_MAX) :
    (req.call siteId fileId pageId previous).panics b st = false ∧
      nextRevisionNumberChecked previous pageId fileId = .ok (previous.revisionNumber + 1) := by
  obtain ⟨hm, hp, -⟩ := getLatest_spec hl
  have hf : previous.fileId = fileId := beq_iff_eq.1 (List.mem_filter.1 hm).2
  have hn : nextRevisionNumber previous pageId fileId =
      .ok (wrappingAdd previous.revisionNumber 1) := nextRevisionNumber_eq_ok.2 ⟨hf, hp, rfl⟩
  refine ⟨?_, nextRevisionNumberChecked_eq_ok hf hp hlt⟩
  cases req <;> simp [Call.panics_eq, Request.call, hn, Except.toBool]

/-- A tombstone of `a.png`, with the row `get_latest` returns after its first revision. -/
theorem request_after_getLatest_never_panics_first :
    getLatest 1 1 1 ((Call.createFirst (firstPng 1)).run Backend.allOk ⟨[], []⟩) =
        .done (.ok ((firstRow (firstPng 1)).withId 0))
          ((Call.createFirst (firstPng 1)).run Backend.allOk ⟨[], []⟩) ∧
      ((firstRow (firstPng 1)).withId 0).revisionNumber < I32_MAX ∧
      ((Request.createTombstone 1 "").call 1 1 1 ((firstRow (firstPng 1)).withId 0)).panics
        Backend.allOk ((Call.createFirst (firstPng 1)).run Backend.allOk ⟨[], []⟩) = false ∧
      nextRevisionNumberChecked ((firstRow (firstPng 1)).withId 0) 1 1 = .ok (0 + 1) :=
  ⟨rfl, by decide, request_after_getLatest_never_panics _ _ rfl (by decide)⟩

end Deepwell
