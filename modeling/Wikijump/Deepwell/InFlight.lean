import Wikijump.Deepwell.Concurrency

/-!
# Any number of requests in flight on one file

`Concurrency` runs two requests.  Here any number of them, named by a type `ι`, interleave their
reads and writes on one file, each request of any kind (`create` included), and each write with
the `previous` its request read.  This file proves that **in every interleaving the revision
numbers stay below the file's row count**, so that a duplicated number always leaves a gap:

* `Flight.run` — the database and the progress of every request after a schedule;
  `Interleaved.run_eq_flight` — the two requests of `Concurrency` are the instance `ι = Bool`,
  and `interleaved_numbers_below_count` the bound for them;
* `FlightInv.step`, `FlightInv.run` — a read takes a row numbered below the count, and a write
  numbers its row `0` or one past the row its request read, which is below the count when it
  writes;
* `flight_numbers_below_count` — `NumbersBelowCount` (`Runs`) holds after any schedule, and the
  file's numbers are free of duplicates exactly when they are `0, …, N - 1` in some order.

The bound needs room below `i32::MAX` for a row per step, so that `wrapping_add` never wraps.
-/

set_option autoImplicit false

namespace Deepwell

/-- Requests in flight on one file, named by `ι`, and the database. -/
structure Flight (ι : Type) where
  progress : ι → Progress
  db : State

section Flight

variable {ι : Type} [DecidableEq ι]

def Flight.step (siteId fileId : Int) (callers : ι → Caller) (w : Flight ι) (i : ι) : Flight ι :=
  let r := (callers i).step siteId fileId (w.progress i) w.db
  ⟨Function.update w.progress i r.1, r.2⟩

def Flight.run (siteId fileId : Int) (callers : ι → Caller) (w : Flight ι) (schedule : List ι) :
    Flight ι :=
  schedule.foldl (Flight.step siteId fileId callers) w

/-- The two requests of `Concurrency` are requests in flight named by `Bool`. -/
theorem Interleaved.run_eq_flight (siteId fileId : Int) (callers : Bool → Caller) :
    ∀ (schedule : List Bool) (w : Interleaved),
      Interleaved.run siteId fileId callers w schedule =
        ⟨(Flight.run siteId fileId callers ⟨w.progress, w.db⟩ schedule).progress,
          (Flight.run siteId fileId callers ⟨w.progress, w.db⟩ schedule).db⟩
  | [], _ => rfl
  | i :: schedule, w => Interleaved.run_eq_flight siteId fileId callers schedule
      (w.step siteId fileId callers i)

end Flight

theorem nodup_iff_perm_range {l : List Int} (h : ∀ x ∈ l, 0 ≤ x ∧ x < l.length) :
    l.Nodup ↔ l.Perm ((List.range l.length).map fun i : Nat => (i : Int)) := by
  have hr : ((List.range l.length).map fun i : Nat => (i : Int)).Nodup :=
    (List.nodup_range _).map fun _ _ h => Int.ofNat_inj.1 h
  refine ⟨fun hl => (List.subperm_of_subset hl fun x hx => ?_).perm_of_length_le (by simp),
    fun hp => hp.nodup_iff.2 hr⟩
  obtain ⟨h0, hlt⟩ := h x hx
  exact List.mem_map.2 ⟨x.toNat, List.mem_range.2 (by omega), by omega⟩

theorem readLatest_holding {siteId fileId pageId : Int} {st : State} {previous : FileRevision}
    (h : readLatest siteId fileId st = .holding pageId previous) :
    getLatest siteId pageId fileId st = .done (.ok previous) st := by
  unfold readLatest at h
  split at h
  · cases h
  · rcases getLatest_cases siteId _ fileId st with ⟨r, hr, -⟩ | hr <;> rw [hr] at h <;> cases h
    exact hr

section Flight

variable {ι : Type} [DecidableEq ι] {siteId : Int} {fileId : Int} {callers : ι → Caller}

theorem Flight.step_progress (w : Flight ι) (i j : ι) :
    (w.step siteId fileId callers i).progress j =
      if j = i then ((callers i).step siteId fileId (w.progress i) w.db).1 else w.progress j := by
  simp only [Flight.step, Function.update_apply]

theorem Flight.step_holding {w : Flight ι} {i j : ι} {pageId : Int} {previous : FileRevision}
    (hj : (w.step siteId fileId callers i).progress j = .holding pageId previous) :
    ((callers i).step siteId fileId (w.progress i) w.db).1 = .holding pageId previous ∨
      w.progress j = .holding pageId previous := by
  rw [Flight.step_progress] at hj
  split_ifs at hj
  · exact .inl hj
  · exact .inr hj

/-- The file's rows are of the site and numbered below the file's row count, and so are the rows
the requests in flight hold. -/
structure FlightInv (siteId fileId : Int) (w : Flight ι) : Prop where
  rows : NumbersBelowCount siteId fileId w.db.rows
  held : ∀ i pageId previous, w.progress i = .holding pageId previous →
    0 ≤ previous.revisionNumber ∧ previous.revisionNumber < (fileRows fileId w.db.rows).length

end Flight

section Flight

variable {ι : Type} [DecidableEq ι] (siteId : Int) {fileId : Int} (callers : ι → Caller)

/-- **A step keeps the numbers below the count**: a read takes a row of the file, and a write
appends at most one row, numbered `0` or one past its request's row, while the table has room
below `i32::MAX`. -/
theorem FlightInv.step (w : Flight ι) (h : FlightInv siteId fileId w)
    (hroom : ((fileRows fileId w.db.rows).length : Int) < I32_MAX) (i : ι) :
    FlightInv siteId fileId (w.step siteId fileId callers i) ∧
      (fileRows fileId (w.step siteId fileId callers i).db.rows).length ≤
        (fileRows fileId w.db.rows).length + 1 := by
  rcases hp : w.progress i with _ | ⟨pageId, previous⟩ | _
  · -- a read: the database is kept, and request `i` holds a row of the file
    have hdb : (w.step siteId fileId callers i).db = w.db := by
      simp only [Flight.step, hp, Caller.step]
    refine ⟨⟨hdb ▸ h.rows, fun j p q hj => hdb ▸ ?_⟩, hdb ▸ Nat.le_succ _⟩
    rcases Flight.step_holding hj with hj | hj
    · rw [hp] at hj
      exact (h.rows q (getLatest_spec (readLatest_holding hj)).1).2
    · exact h.held j p q hj
  · -- a write: request `i` finishes, and the file gains at most one row
    obtain ⟨h0, hlt⟩ := h.held i pageId previous hp
    have held : ∀ j p q, (w.step siteId fileId callers i).progress j = .holding p q →
        w.progress j = .holding p q := fun j p q hj => (Flight.step_holding hj).resolve_left
      (by rw [hp]; intro hi; cases hi)
    have hdb : (w.step siteId fileId callers i).db =
        ((callers i).request.call siteId fileId pageId previous).run (callers i).backend w.db := by
      simp only [Flight.step, hp, Caller.step]
    rcases Request.run_cases (callers i).backend (callers i).request siteId fileId pageId previous
      w.db with he | ⟨r, he, -, -, hf, hs, hn⟩
    · refine ⟨⟨by rw [hdb, he]; exact h.rows, fun j p q hj => ?_⟩, by rw [hdb, he]; omega⟩
      rw [hdb, he]
      exact h.held j p q (held j p q hj)
    have hfr : fileRows fileId (w.step siteId fileId callers i).db.rows =
        fileRows fileId w.db.rows ++ [r] := by rw [hdb, he, fileRows_append_of_fileId _ _ hf]
    have hr : 0 ≤ r.revisionNumber ∧ r.revisionNumber ≤ (fileRows fileId w.db.rows).length := by
      rcases hn with ⟨-, hn⟩ | hn
      · omega
      · rw [hn, wrappingAdd_one h0 (by omega)]; omega
    refine ⟨⟨fun s hm => ?_, fun j p q hj => ?_⟩, ?_⟩ <;>
      rw [hfr, List.length_append, List.length_singleton]
    · rcases List.mem_append.1 (hfr ▸ hm) with hm | hm
      · have := h.rows s hm; exact ⟨this.1, by omega⟩
      · rw [List.mem_singleton.1 hm]; exact ⟨hs, by omega⟩
    · have := h.held j p q (held j p q hj); omega
  · -- a finished request changes nothing
    have hw : w.step siteId fileId callers i = w := by
      simp only [Flight.step, hp, Caller.step]
      rw [← hp, Function.update_eq_self]
    rw [hw]
    exact ⟨h, Nat.le_succ _⟩

/-- Every schedule keeps the numbers below the count, while the table has room for a write per
step below `i32::MAX`. -/
theorem FlightInv.run : ∀ (schedule : List ι) (w : Flight ι), FlightInv siteId fileId w →
    ((fileRows fileId w.db.rows).length + schedule.length : Int) ≤ I32_MAX →
    FlightInv siteId fileId (w.run siteId fileId callers schedule)
  | [], _, h, _ => h
  | i :: schedule, w, h, hroom => by
    simp only [List.length_cons] at hroom
    obtain ⟨h', hlen⟩ := FlightInv.step siteId callers w h (by omega) i
    exact FlightInv.run schedule _ h' (by omega)

end Flight

/-- **Any number of requests keep every revision number below the row count.**  On a file whose
revision numbers lie in `0, …, N - 1`, let requests of any kinds, named by any type, read and
write in any interleaving, each writing with the `previous` it read, with room for a write per
step below `2^31`.  Afterwards the numbers still lie in `0, …, N' - 1`, `N'` the new row count;
so the numbers are free of duplicates exactly when they are `0, …, N' - 1` in some order, and
every duplicated number leaves a gap. -/
theorem flight_numbers_below_count {ι : Type} [DecidableEq ι] (siteId fileId : Int)
    (callers : ι → Caller) {st : State} (h : NumbersBelowCount siteId fileId st.rows)
    (schedule : List ι)
    (hroom : ((fileRows fileId st.rows).length + schedule.length : Int) ≤ I32_MAX) :
    NumbersBelowCount siteId fileId (Flight.run siteId fileId callers ⟨fun _ => .ready, st⟩ schedule).db.rows ∧
      (((fileRows fileId (Flight.run siteId fileId callers ⟨fun _ => .ready, st⟩
          schedule).db.rows).map (·.revisionNumber)).Nodup ↔
        ((fileRows fileId (Flight.run siteId fileId callers ⟨fun _ => .ready, st⟩
          schedule).db.rows).map (·.revisionNumber)).Perm
          ((List.range (fileRows fileId (Flight.run siteId fileId callers
            ⟨fun _ => .ready, st⟩ schedule).db.rows).length).map fun i : Nat => (i : Int))) := by
  have hinv := FlightInv.run siteId callers schedule ⟨fun _ => .ready, st⟩
    ⟨h, fun _ _ _ hi => by cases hi⟩ hroom
  refine ⟨hinv.rows, ?_⟩
  rw [← List.length_map _ (·.revisionNumber)]
  refine nodup_iff_perm_range fun x hx => ?_
  obtain ⟨r, hr, rfl⟩ := List.mem_map.1 hx
  rw [List.length_map]
  exact (hinv.rows r hr).2

def tombstoneTrio : Fin 3 → Caller :=
  fun i => ⟨Backend.allOk, .createTombstone (i.val + 1) ""⟩

/-- After the scenario's first revision, three tombstone requests all read revision 0 before
any writes: the numbers stay below the count, and all three tombstones are numbered 1. -/
theorem flight_numbers_below_count_trio :
    NumbersBelowCount 1 5 (Flight.run 1 5 tombstoneTrio
        ⟨fun _ => .ready, (createFirst Backend.allOk scenarioFirst ⟨[], []⟩).state⟩
        [0, 1, 2, 0, 1, 2]).db.rows ∧
      (fileRows 5 (Flight.run 1 5 tombstoneTrio
        ⟨fun _ => .ready, (createFirst Backend.allOk scenarioFirst ⟨[], []⟩).state⟩
        [0, 1, 2, 0, 1, 2]).db.rows).map (·.revisionNumber) = [0, 1, 1, 1] :=
  ⟨(flight_numbers_below_count 1 5 tombstoneTrio
    (FileRun.numbersBelowCount
      (FileRun.first ⟨[], []⟩ Backend.allOk scenarioFirst _ rfl rfl rfl rfl : FileRun anyRequest 1 5 _)
      (by decide)) [0, 1, 2, 0, 1, 2] (by decide)).1, rfl⟩

/-- **The two requests of `Concurrency` are the case `ι = Bool`**: in every interleaving of two
requests of any kinds the numbers stay below the row count. -/
theorem interleaved_numbers_below_count (siteId fileId : Int) (callers : Bool → Caller)
    {st : State} (h : NumbersBelowCount siteId fileId st.rows) (schedule : List Bool)
    (hroom : ((fileRows fileId st.rows).length + schedule.length : Int) ≤ I32_MAX) :
    NumbersBelowCount siteId fileId
      (Interleaved.run siteId fileId callers ⟨fun _ => .ready, st⟩ schedule).db.rows := by
  rw [Interleaved.run_eq_flight]
  exact (FlightInv.run siteId callers schedule _ ⟨h, fun _ _ _ hi => by cases hi⟩ hroom).rows

end Deepwell
