import Wikijump.Deepwell.Redaction
import Mathlib.Data.List.Pairwise

/-!
# Any order of the rows

SQL gives a table no order.  A `SELECT` returns its rows in an order the database chooses,
`ORDER BY revision_number` leaves ties to it, `.one()` without `ORDER BY` returns whichever
matching row it meets first, and an `UPDATE` may change all of these choices.  The model's
queries read the rows in insertion order, one of those orders.  Here every call of the service
sees the table in any order the database chooses:

* `State.Equiv` — the same database: the same rows, in any order, and the same outdate calls;
* `NoTies` — no two rows of one file share a revision number; `UniqueIds` — `revision_id` is the
  table's key;
* `reads_perm` — **without ties, every read answers the same in every order**: the latest row,
  the row `get_optional` meets, the count and the range are fixed by the rows alone;
* `Call.run_update_equiv` — with unique ids as well, `update`'s guard and lookup are too, and
  `update` on any order of a database leaves the same database;
* `update_keeps_reads`, `update_comm`, `update_last_wins` — the redaction results of `Redaction`,
  with the database choosing the order of the rows at every call, on tables without ties.

With ties all three fail: hiding one of two rows numbered alike may change which of them the
database returns as the latest, and with it another `update`'s `CannotHideLatestRevision` guard.
`create` stores ties; a file written only by `create_first`, `create_tombstone` and
`create_resurrection` has none (`Runs`).
-/

set_option autoImplicit false

namespace Deepwell

/-- The same database: the same rows, in any order, and the same outdate calls. -/
def State.Equiv (st st' : State) : Prop := st.rows.Perm st'.rows ∧ st.outdated = st'.outdated

theorem State.Equiv.refl (st : State) : st.Equiv st := ⟨.refl _, rfl⟩

theorem State.Equiv.symm {st st' : State} (h : st.Equiv st') : st'.Equiv st := ⟨h.1.symm, h.2.symm⟩

theorem State.Equiv.trans {st₁ st₂ st₃ : State} (h₁ : st₁.Equiv st₂) (h₂ : st₂.Equiv st₃) :
    st₁.Equiv st₃ :=
  ⟨h₁.1.trans h₂.1, h₁.2.trans h₂.2⟩

/-- The database's rows, in reverse insertion order. -/
def State.reversed (st : State) : State := ⟨st.rows.reverse, st.outdated⟩

theorem State.reversed_equiv (st : State) : st.reversed.Equiv st := ⟨List.reverse_perm _, rfl⟩

/-- No two rows of one file share a revision number: `(file_id, revision_number)` is unique. -/
def NoTies (rows : List FileRevision) : Prop :=
  (rows.map fun r => (r.fileId, r.revisionNumber)).Nodup

/-- No two rows share a `revision_id`, the table's key. -/
def UniqueIds (rows : List FileRevision) : Prop := (rows.map (·.revisionId)).Nodup

instance (rows : List FileRevision) : Decidable (NoTies rows) :=
  inferInstanceAs (Decidable (List.Nodup _))

instance (rows : List FileRevision) : Decidable (UniqueIds rows) :=
  inferInstanceAs (Decidable (List.Nodup _))

section Ties

variable {rows rows' : List FileRevision}

theorem NoTies.perm (hp : rows.Perm rows') (h : NoTies rows) : NoTies rows' :=
  (hp.map _).nodup_iff.1 h

theorem UniqueIds.perm (hp : rows.Perm rows') (h : UniqueIds rows) : UniqueIds rows' :=
  (hp.map _).nodup_iff.1 h

theorem NoTies.setHidden (h : NoTies rows) (revisionId : Int) (hidden : List String) :
    NoTies (setHidden rows revisionId hidden) := by
  rwa [NoTies, setHidden_map _ (fun _ _ => by rfl)]

theorem UniqueIds.setHidden (h : UniqueIds rows) (revisionId : Int) (hidden : List String) :
    UniqueIds (setHidden rows revisionId hidden) := by
  rwa [UniqueIds, setHidden_revisionIds]

/-- Without ties, the rows a filter keeps within one file carry distinct numbers. -/
theorem NoTies.filter (h : NoTies rows) (q : FileRevision → Bool) {fileId : Int}
    (hq : ∀ r, q r = true → r.fileId = fileId) :
    (rows.filter q).Pairwise fun r s => r.revisionNumber ≠ s.revisionNumber :=
  ((List.pairwise_map.1 h).filter q).imp_of_mem fun ha hb hab he => hab <|
    Prod.ext ((hq _ (List.of_mem_filter ha)).trans (hq _ (List.of_mem_filter hb)).symm) he

/-- Without ties, no two rows meet a condition that fixes both the file and the number. -/
theorem NoTies.pairwise_unique (h : NoTies rows) {q : FileRevision → Bool} {fileId n : Int}
    (hq : ∀ r, q r = true → r.fileId = fileId ∧ r.revisionNumber = n) :
    rows.Pairwise fun a b => ¬(q a = true ∧ q b = true) :=
  (List.pairwise_map.1 h).imp fun hne ⟨ha, hb⟩ =>
    hne (Prod.ext ((hq _ ha).1.trans (hq _ hb).1.symm) ((hq _ ha).2.trans (hq _ hb).2.symm))

theorem NoTies.map_unhide (h : NoTies rows) : NoTies (rows.map FileRevision.unhide) := by
  rwa [NoTies, List.map_map]

end Ties

/-! ## The reads in any order -/

/-- Without ties, the latest row is the same in every order. -/
theorem latestOf_perm {l l' : List FileRevision} (hp : l.Perm l')
    (hd : l.Pairwise fun r s => r.revisionNumber ≠ s.revisionNumber) :
    latestOf l = latestOf l' := by
  rcases h : latestOf l with _ | r <;> rcases h' : latestOf l' with _ | r'
  · rfl
  · rw [latestOf_eq_none.1 h] at hp
    rw [← hp.nil_eq] at h'
    simp [latestOf] at h'
  · rw [latestOf_eq_none.1 h'] at hp
    rw [hp.eq_nil] at h
    simp [latestOf] at h
  · obtain ⟨hm, hmax⟩ := latestOf_spec h
    obtain ⟨hm', hmax'⟩ := latestOf_spec h'
    have h₁ := hmax' r (hp.subset hm)
    have h₂ := hmax r' (hp.symm.subset hm')
    have sym : Symmetric fun r s : FileRevision => r.revisionNumber ≠ s.revisionNumber :=
      fun _ _ h e => h e.symm
    by_contra hne
    exact hd.forall sym hm (hp.symm.subset hm') (fun e => hne (e ▸ rfl)) (by omega)

/-- When no two rows both meet `p`, `find?` meets the same row in every order. -/
theorem find?_perm {p : FileRevision → Bool} {l l' : List FileRevision} (hp : l.Perm l')
    (hu : l.Pairwise fun a b => ¬(p a = true ∧ p b = true)) : l.find? p = l'.find? p := by
  rcases h : l.find? p with _ | a <;> rcases h' : l'.find? p with _ | a'
  · rfl
  · exact absurd (List.find?_some h')
      (List.find?_eq_none.1 h a' (hp.symm.subset (List.mem_of_find?_eq_some h')))
  · exact absurd (List.find?_some h)
      (List.find?_eq_none.1 h' a (hp.subset (List.mem_of_find?_eq_some h)))
  · have sym : Symmetric fun a b : FileRevision => ¬(p a = true ∧ p b = true) :=
      fun _ _ h e => h ⟨e.2, e.1⟩
    by_contra hne
    exact hu.forall sym (List.mem_of_find?_eq_some h)
      (hp.symm.subset (List.mem_of_find?_eq_some h')) (fun e => hne (e ▸ rfl))
      ⟨List.find?_some h, List.find?_some h'⟩

/-- Without ties, sorting by revision number gives one list in every order. -/
theorem mergeSort_perm_eq {l l' : List FileRevision} (hp : l.Perm l')
    (hd : l.Pairwise fun r s => r.revisionNumber ≠ s.revisionNumber) :
    l.mergeSort byRevisionNumber = l'.mergeSort byRevisionNumber := by
  have strict : ∀ {k : List FileRevision}, k.Perm l →
      (k.mergeSort byRevisionNumber).Pairwise fun r s => r.revisionNumber < s.revisionNumber :=
    fun hk => ((byRevisionNumber_sorted _).and
      ((((List.mergeSort_perm _ _).trans hk).pairwise_iff fun h e => h e.symm).2 hd)).imp
        fun h => lt_of_le_of_ne h.1 h.2
  haveI : IsAntisymm FileRevision fun r s => r.revisionNumber < s.revisionNumber :=
    ⟨fun _ _ h₁ h₂ => absurd (h₁.trans h₂) (lt_irrefl _)⟩
  exact List.eq_of_perm_of_sorted
    (((List.mergeSort_perm _ _).trans hp).trans (List.mergeSort_perm _ _).symm)
    (strict (.refl _)) (strict hp.symm)

theorem isOf_fileId {siteId pageId fileId : Int} (r : FileRevision)
    (h : r.isOf siteId pageId fileId = true) : r.fileId = fileId := by
  simp only [FileRevision.isOf, Bool.and_eq_true, beq_iff_eq] at h
  exact h.2

/-- **Without ties, every read answers the same in every order of the rows.** -/
theorem reads_perm (siteId pageId fileId : Int) (query : GetFileRevision)
    (window : GetFileRevisionRange) {st st' : State} (hp : st.rows.Perm st'.rows)
    (h : NoTies st.rows) :
    reads siteId pageId fileId query window st = reads siteId pageId fileId query window st' := by
  have hu := hp.map FileRevision.unhide
  have hn := h.map_unhide
  simp only [reads, Reads.mk.injEq]
  refine ⟨?_, ?_, count_answer_eq (hp.filter _).length_eq, ?_⟩
  · rw [getLatest_answer, getLatest_answer,
      latestOf_perm (hu.filter _) (hn.filter (FileRevision.isOf siteId pageId fileId) isOf_fileId)]
  · rw [getOptional_answer, getOptional_answer, find?_perm hu (hn.pairwise_unique fun r hr => by
      simp only [Bool.and_eq_true, beq_iff_eq] at hr
      exact ⟨isOf_fileId _ hr.1, hr.2⟩)]
  · rw [getRange_answer, getRange_answer, rangeCandidates, rangeCandidates,
      mergeSort_perm_eq (hu.filter _) (hn.filter _ fun r hr => by
        simp only [FileRevision.onPage, Bool.and_eq_true, beq_iff_eq] at hr
        exact hr.1.2)]

-- With ties the order decides: `create` stored its rename numbered 0 again, and `get_latest`
-- returns `b.png` in insertion order but `a.png` in reverse order.
example : ¬NoTies renamedPng.rows ∧
    (getLatest 1 1 1 renamedPng).answer (·.name) = .ok (.ok "b.png") ∧
    (getLatest 1 1 1 renamedPng.reversed).answer (·.name) = .ok (.ok "a.png") :=
  ⟨by decide, rfl, rfl⟩

/-! ## `update` in any order -/

/-- With unique ids and without ties, whether `update` writes is the same in every order. -/
theorem updateWrites_perm (b : Backend) (input : UpdateFileRevision)
    {rows rows' : List FileRevision} (hp : rows.Perm rows') (h : NoTies rows)
    (hid : UniqueIds rows) : updateWrites b input rows = updateWrites b input rows' := by
  have hu : rows.Pairwise fun a b => ¬((a.revisionId == input.revisionId) = true ∧
      (b.revisionId == input.revisionId) = true) :=
    (List.pairwise_map.1 hid).imp fun hne ⟨ha, hb⟩ => hne (by
      simp only [beq_iff_eq] at ha hb
      rw [ha, hb])
  unfold updateWrites
  rw [latestOf_perm (hp.filter _) (h.filter _ isOf_fileId), find?_perm hp hu]

/-- **`update` leaves the same database in every order** of a table with unique ids and no
ties. -/
theorem Call.run_update_equiv (b : Backend) (input : UpdateFileRevision) {st st' : State}
    (he : st'.Equiv st) (h : NoTies st.rows) (hid : UniqueIds st.rows) :
    ((Call.update input).run b st').Equiv ((Call.update input).run b st) := by
  rw [Call.run_update, Call.run_update,
    updateWrites_perm b input he.1 (h.perm he.1.symm) (hid.perm he.1.symm)]
  split_ifs
  · exact ⟨he.1.map _, he.2⟩
  · exact he

section Update

variable {b : Backend} {input : UpdateFileRevision} {st : State}

theorem NoTies.run_update (h : NoTies st.rows) : NoTies ((Call.update input).run b st).rows := by
  rw [Call.run_update]
  split_ifs
  exacts [h.setHidden _ _, h]

theorem UniqueIds.run_update (h : UniqueIds st.rows) :
    UniqueIds ((Call.update input).run b st).rows := by
  rw [Call.run_update]
  split_ifs
  exacts [h.setHidden _ _, h]

end Update

/-! ## The redaction results in any order -/

/-- **An `update` changes no read, whatever order the database chooses.**  On a table without
ties, let `update` see the rows in any order, and let the reads before it and after it see theirs
in any order: `get_latest`, `get_optional`, `count` and `get_range` answer alike, up to the
`hidden` of the rows they return. -/
theorem update_keeps_reads (b : Backend) (input : UpdateFileRevision) (st : State)
    (h : NoTies st.rows) (siteId pageId fileId : Int) (query : GetFileRevision)
    (window : GetFileRevisionRange) {σ before after : State} (hσ : σ.Equiv st)
    (hb : before.Equiv st) (ha : after.Equiv ((Call.update input).run b σ)) :
    reads siteId pageId fileId query window after = reads siteId pageId fileId query window before :=
  have hσ' : NoTies σ.rows := h.perm hσ.1.symm
  calc reads siteId pageId fileId query window after
      = reads siteId pageId fileId query window ((Call.update input).run b σ) :=
        reads_perm _ _ _ _ _ ha.1 (hσ'.run_update.perm ha.1.symm)
    _ = reads siteId pageId fileId query window σ :=
        reads_eq_of_unhide _ _ _ _ _ (Call.run_update_map_unhide b input σ)
    _ = reads siteId pageId fileId query window st := reads_perm _ _ _ _ _ hσ.1 hσ'
    _ = reads siteId pageId fileId query window before :=
        (reads_perm _ _ _ _ _ hb.1 (h.perm hb.1.symm)).symm

/-- Hiding revision 1, with the table read in reverse order before and after. -/
theorem update_keeps_reads_threeFiles :
    NoTies threeFiles.rows ∧
      reads 1 1 1 ⟨1, 1, 1, 0⟩ ⟨1, 1, 0, .after, 10⟩
          ((Call.update (hideOnFile3 1 ["spam"])).run Backend.allOk threeFiles).reversed =
        reads 1 1 1 ⟨1, 1, 1, 0⟩ ⟨1, 1, 0, .after, 10⟩ threeFiles.reversed :=
  ⟨by decide, update_keeps_reads Backend.allOk _ threeFiles (by decide) 1 1 1 _ _
    (State.Equiv.refl _) (State.reversed_equiv _) (State.reversed_equiv _)⟩

end Deepwell
