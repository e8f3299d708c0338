import Wikijump.Deepwell.Model
import Mathlib.Data.List.Sort

/-!
# The read queries of `FileRevisionService`

* `getLatest` — `get_latest`: the rows of `(site_id, page_id, file_id)`, highest
  `revision_number` first, one row, or `Error::FileRevisionNotFound`;
* `getOptional` — `get_optional`;
* `count` — `count`: the rows of `(page_id, file_id)`, as a `NonZeroI32` (`Error::FileNotFound`
  for none; the `i32::try_from(..).expect(..)` panic past `i32::MAX`);
* `getRange` — `get_range`: the `-1` sentinel mapped to `i32::MAX`, the `lte` / `gte` condition,
  ascending order, then `LIMIT`.

`latestOf_spec` and `getRange_spec` say what the two ordered queries return, whatever the
database does with ties in `revision_number`.
-/

set_option autoImplicit false

namespace Deepwell

/-- The filter of `get_latest` and `get_optional` on site, page and file. -/
def FileRevision.isOf (siteId pageId fileId : Int) (r : FileRevision) : Bool :=
  r.siteId == siteId && r.pageId == pageId && r.fileId == fileId

/-- `ORDER BY revision_number DESC LIMIT 1`.  SQL leaves the order of ties to the database; this
model returns the row inserted last among them. -/
def latestOf : List FileRevision → Option FileRevision
  | [] => none
  | r :: rs =>
    match latestOf rs with
    | none => some r
    | some s => if r.revisionNumber ≤ s.revisionNumber then some s else some r

theorem latestOf_eq_none {rs : List FileRevision} : latestOf rs = none ↔ rs = [] := by
  cases rs with
  | nil => simp [latestOf]
  | cons r rs => simp only [latestOf, reduceCtorEq, iff_false]; split <;> (try split) <;> simp

/-- **`latestOf` returns a row of the list with the greatest number.** -/
theorem latestOf_spec : ∀ {rs : List FileRevision} {r : FileRevision}, latestOf rs = some r →
    r ∈ rs ∧ ∀ s ∈ rs, s.revisionNumber ≤ r.revisionNumber
  | [], _, h => by simp [latestOf] at h
  | x :: rs, r, h => by
    simp only [latestOf] at h
    split at h
    · rename_i hn
      cases h
      simp [latestOf_eq_none.1 hn]
    · rename_i s hs
      obtain ⟨hm, hmax⟩ := latestOf_spec hs
      split at h <;> cases h
      · exact ⟨List.mem_cons_of_mem _ hm, by simpa [*] using hmax⟩
      · refine ⟨List.mem_cons_self _ _, fun t ht => ?_⟩
        rcases List.mem_cons.1 ht with rfl | ht
        · exact le_refl _
        · have := hmax t ht; omega

def getLatest (siteId pageId fileId : Int) : Service FileRevision := fun st =>
  match latestOf (st.rows.filter (FileRevision.isOf siteId pageId fileId)) with
  | some r => .done (.ok r) st
  | none => .done (.error .fileRevisionNotFound) st

theorem getLatest_cases (siteId pageId fileId : Int) (st : State) :
    (∃ r, getLatest siteId pageId fileId st = .done (.ok r) st ∧
      latestOf (st.rows.filter (FileRevision.isOf siteId pageId fileId)) = some r) ∨
    getLatest siteId pageId fileId st = .done (.error .fileRevisionNotFound) st := by
  unfold getLatest
  split
  · exact .inl ⟨_, rfl, ‹_›⟩
  · exact .inr rfl

structure GetFileRevision where
  siteId : Int
  pageId : Int
  fileId : Int
  revisionNumber : Int
  deriving DecidableEq, Repr

/-- `FileRevisionService::get_optional` (`.one()` without an order: the first row found). -/
def getOptional (input : GetFileRevision) : Service (Option FileRevision) := fun st =>
  .done (.ok (st.rows.find? fun r =>
    r.isOf input.siteId input.pageId input.fileId && r.revisionNumber == input.revisionNumber)) st

structure NonZeroI32 where
  get : Int
  ne_zero : get ≠ 0

def NonZeroI32.new (n : Int) : Option NonZeroI32 := if h : n = 0 then none else some ⟨n, h⟩

/-- The filter of `count` and `get_range`: page and file, not site. -/
def FileRevision.onPage (pageId fileId : Int) (r : FileRevision) : Bool :=
  r.pageId == pageId && r.fileId == fileId

/-- The `SELECT COUNT(*)` of `count`. -/
def revisionCount (pageId fileId : Int) (rows : List FileRevision) : Nat :=
  (rows.filter (FileRevision.onPage pageId fileId)).length

def count (pageId fileId : Int) : Service NonZeroI32 := fun st =>
  let rowCount : Int := revisionCount pageId fileId st.rows
  if I32_MAX < rowCount then
    .panic "Revision row count greater than revision_number integer size" st
  else
    match NonZeroI32.new rowCount with
    | some n => .done (.ok n) st
    | none => .done (.error .fileNotFound) st

/-- **`count` counts the rows of `(page_id, file_id)`**: it returns their number when there are
some and no more than `i32::MAX`, fails with `FileNotFound` when there are none, and panics past
`i32::MAX`. -/
theorem count_spec (pageId fileId : Int) (st : State) :
    (0 < revisionCount pageId fileId st.rows → (revisionCount pageId fileId st.rows : Int) ≤ I32_MAX →
      ∃ c : NonZeroI32, count pageId fileId st = .done (.ok c) st ∧
        c.get = revisionCount pageId fileId st.rows) ∧
    (revisionCount pageId fileId st.rows = 0 →
      count pageId fileId st = .done (.error .fileNotFound) st) ∧
    (I32_MAX < revisionCount pageId fileId st.rows → ∃ msg, count pageId fileId st = .panic msg st) := by
  simp only [count]
  generalize revisionCount pageId fileId st.rows = n
  refine ⟨fun hpos hle => ?_, fun h0 => ?_, fun hlt => ⟨_, if_pos hlt⟩⟩
  · have hne : (n : Int) ≠ 0 := by omega
    exact ⟨⟨n, hne⟩, by simp [NonZeroI32.new, hne, not_lt.2 hle], rfl⟩
  · simp [NonZeroI32.new, h0, I32_MAX]

def byRevisionNumber (a b : FileRevision) : Bool := a.revisionNumber ≤ b.revisionNumber

/-- The anchor of `get_range`: `-1` (any negative value) means "the most recent revision" and is
mapped to `i32::MAX`. -/
def rangeAnchor (revisionNumber : Int) : Int := if 0 ≤ revisionNumber then revisionNumber else I32_MAX

def revisionCondition (direction : FetchDirection) (anchor : Int) (r : FileRevision) : Bool :=
  match direction with
  | .before => r.revisionNumber ≤ anchor
  | .after => anchor ≤ r.revisionNumber

/-- The `WHERE` of `get_range`: page, file, and the condition on `revision_number`. -/
def rangeCandidates (input : GetFileRevisionRange) (rows : List FileRevision) : List FileRevision :=
  rows.filter fun r =>
    r.onPage input.pageId input.fileId &&
      revisionCondition input.revisionDirection (rangeAnchor input.revisionNumber) r

/-- `FileRevisionService::get_range`.  The sort is stable: ties keep insertion order, one of the
orders the database may return. -/
def getRange (input : GetFileRevisionRange) : Service (List FileRevision) := fun st =>
  .done (.ok (((rangeCandidates input st.rows).mergeSort byRevisionNumber).take input.limit)) st

/-- What "the first `k` rows of `T` in ascending `revision_number` order" means, for any order
of ties: `L` is sorted, has `min k |T|` rows, and together with the rows `R` it leaves out is a
permutation of `T`, every kept row numbered no higher than every row left out. -/
def IsLowestSorted (k : Nat) (T L : List FileRevision) : Prop :=
  L.Pairwise (fun a b => a.revisionNumber ≤ b.revisionNumber) ∧ L.length = min k T.length ∧
    ∃ R : List FileRevision, (L ++ R).Perm T ∧
      ∀ a ∈ L, ∀ b ∈ R, a.revisionNumber ≤ b.revisionNumber

theorem byRevisionNumber_sorted (T : List FileRevision) :
    (T.mergeSort byRevisionNumber).Pairwise (fun a b => a.revisionNumber ≤ b.revisionNumber) := by
  have h := @List.sorted_mergeSort _ byRevisionNumber
    (fun a b c hab hbc => by simp only [byRevisionNumber, decide_eq_true_eq] at *; omega)
    (fun a b => by simp only [byRevisionNumber, Bool.or_eq_true, decide_eq_true_eq]; omega) T
  exact h.imp fun hab => by simpa [byRevisionNumber] using hab

/-- **`get_range` returns the lowest-numbered `limit` rows among those it selects, ascending.** -/
theorem getRange_spec (input : GetFileRevisionRange) (st : State) :
    ∃ L, getRange input st = .done (.ok L) st ∧
      IsLowestSorted input.limit (rangeCandidates input st.rows) L := by
  refine ⟨_, rfl, ?_⟩
  set T := rangeCandidates input st.rows
  have hs := byRevisionNumber_sorted T
  have hp := List.mergeSort_perm T byRevisionNumber
  rw [← List.take_append_drop input.limit (T.mergeSort byRevisionNumber)] at hs hp
  refine ⟨hs.sublist (List.sublist_append_left _ _), by simp [T, min_comm], _, hp, ?_⟩
  exact fun a ha b hb => (List.pairwise_append.1 hs).2.2 a ha b hb

theorem IsLowestSorted.perm_of_le {k : Nat} {T L : List FileRevision} (h : IsLowestSorted k T L)
    (hk : T.length ≤ k) : L.Perm T := by
  obtain ⟨-, hlen, R, hp, -⟩ := h
  have hR : R = [] := List.eq_nil_of_length_eq_zero (by
    have := hp.length_eq
    rw [List.length_append, hlen, min_eq_right hk] at this
    omega)
  simpa [hR] using hp

theorem IsLowestSorted.mem_of_lowest {k : Nat} {T L : List FileRevision} (h : IsLowestSorted k T L)
    (hk : 0 < k) {t : FileRevision} (ht : t ∈ T)
    (hlow : ∀ s ∈ T, s ≠ t → t.revisionNumber < s.revisionNumber) : t ∈ L := by
  obtain ⟨-, hlen, R, hp, hle⟩ := h
  rcases List.mem_append.1 (hp.mem_iff.2 ht) with htL | htR
  · exact htL
  obtain ⟨a, ha⟩ := List.exists_mem_of_length_pos
    (by rw [hlen]; exact lt_min hk (List.length_pos_of_mem ht))
  by_cases hat : a = t
  · exact hat ▸ ha
  have h1 := hlow a (hp.mem_iff.1 (List.mem_append_left _ ha)) hat
  have h2 := hle a ha t htR
  omega

end Deepwell
