import Wikijump.Deepwell.Runs

/-!
# Two requests in flight on one file

`next_revision_number` trusts the `previous` its caller read, and the inserts of
`create_tombstone` and `create_resurrection` are unconditional: the service itself does not
serialize requests on one file.  Here two requests run concurrently on a file.  Each first reads
`previous` with `get_latest` on the page of the file's most recently inserted row, then calls its
writer with it; at every step a scheduler picks the request that moves.

* `Interleaved.run` — the database and the progress of the two requests after a schedule.
* `stale_reads_duplicate_number` — both requests read before either writes: the two tombstones
  of the scenario's file are both numbered 1.
* `SoloInv.step`, `StaleInv.step` — what every step keeps once one request has run alone, or
  once both have read; `SoloInv.start`, `Interleaved.reads_first` — the two ways a schedule
  starts.
* `interleaved_lifecycle_numbering` — on a numbered file, in every interleaving of two tombstone
  or resurrection requests: when the second request reads after the first has written, the file
  stays numbered `0, 1, …`; when both read first and both writes land, the two new rows share the
  number `N`, where `N` is the file's row count before them.
-/

set_option autoImplicit false

namespace Deepwell

/-- How far a request has got. -/
inductive Progress where
  /-- It has not read `previous` yet. -/
  | ready
  /-- It read `previous` on the page `pageId` and has still to write. -/
  | holding (pageId : Int) (previous : FileRevision)
  /-- It wrote, or its read found nothing. -/
  | finished

def Progress.pending : Progress → Nat
  | .finished => 0
  | _ => 1

@[simp] theorem Progress.pending_ready : Progress.ready.pending = 1 := rfl

@[simp] theorem Progress.pending_holding (pageId : Int) (previous : FileRevision) :
    (Progress.holding pageId previous).pending = 1 := rfl

@[simp] theorem Progress.pending_finished : Progress.finished.pending = 0 := rfl

/-- A request that has not read, has finished, or holds the file's last row read on its page. -/
def Progress.Fresh (fileId : Int) (rows : List FileRevision) : Progress → Prop
  | .holding pageId previous =>
    (fileRows fileId rows).getLast? = some previous ∧ pageId = previous.pageId
  | _ => True

/-- A concurrent request: its writer with its arguments, and its collaborators. -/
structure Caller where
  backend : Backend
  request : Request

/-- The read of a request: `get_latest` on the page of the file's most recently inserted row. -/
def readLatest (siteId fileId : Int) (st : State) : Progress :=
  match currentPage fileId st.rows with
  | none => .finished
  | some pageId =>
    match getLatest siteId pageId fileId st with
    | .done (.ok previous) _ => .holding pageId previous
    | _ => .finished

/-- The next step of a request: its read, or its write with what it read. -/
def Caller.step (siteId fileId : Int) (c : Caller) : Progress → State → Progress × State
  | .ready, st => (readLatest siteId fileId st, st)
  | .holding pageId previous, st =>
    (.finished, (c.request.call siteId fileId pageId previous).run c.backend st)
  | .finished, st => (.finished, st)

/-- Two requests in flight, named `true` and `false`, and the database. -/
structure Interleaved where
  progress : Bool → Progress
  db : State

def Interleaved.step (siteId fileId : Int) (callers : Bool → Caller) (w : Interleaved)
    (i : Bool) : Interleaved :=
  let r := (callers i).step siteId fileId (w.progress i) w.db
  ⟨Function.update w.progress i r.1, r.2⟩

def Interleaved.run (siteId fileId : Int) (callers : Bool → Caller) (w : Interleaved)
    (schedule : List Bool) : Interleaved :=
  schedule.foldl (Interleaved.step siteId fileId callers) w

def tombstoneCallers : Bool → Caller :=
  fun i => ⟨Backend.allOk, .createTombstone (if i then 1 else 2) ""⟩

/-- From the scenario's first revision, both requests read before either writes: both tombstones
are numbered 1. -/
theorem stale_reads_duplicate_number :
    ∃ st, FileRun anyRequest 1 5 st ∧
      (fileRows 5 (Interleaved.run 1 5 tombstoneCallers ⟨fun _ => .ready, st⟩
        [true, false, true, false]).db.rows).map (·.revisionNumber) = [0, 1, 1] :=
  ⟨_, .first ⟨[], []⟩ Backend.allOk scenarioFirst _ rfl rfl rfl rfl, rfl⟩

/-! ## Steps -/

section Steps

variable {siteId fileId : Int} {callers : Bool → Caller}

@[simp] theorem Interleaved.step_db (w : Interleaved) (i : Bool) :
    (w.step siteId fileId callers i).db = ((callers i).step siteId fileId (w.progress i) w.db).2 :=
  rfl

@[simp] theorem Interleaved.step_progress_self (w : Interleaved) (i : Bool) :
    (w.step siteId fileId callers i).progress i =
      ((callers i).step siteId fileId (w.progress i) w.db).1 := by
  simp [Interleaved.step]

theorem Interleaved.step_progress_ne (w : Interleaved) {i j : Bool} (h : j ≠ i) :
    (w.step siteId fileId callers i).progress j = w.progress j := by
  simp [Interleaved.step, Function.update_noteq h]

theorem Interleaved.step_finished {w : Interleaved} {i : Bool} (h : w.progress i = .finished) :
    w.step siteId fileId callers i = w := by
  unfold Interleaved.step
  rw [h]
  simp only [Caller.step]
  rw [← h, Function.update_eq_self]

theorem Interleaved.run_of_step (P : Interleaved → Prop)
    (hstep : ∀ w i, P w → P (w.step siteId fileId callers i)) :
    ∀ (schedule : List Bool) (w : Interleaved), P w → P (w.run siteId fileId callers schedule)
  | [], _, h => h
  | i :: schedule, w, h => Interleaved.run_of_step P hstep schedule _ (hstep w i h)

end Steps

theorem Numbered.readLatest_cases {siteId fileId : Int} {st : State}
    (h : Numbered siteId fileId st.rows) :
    readLatest siteId fileId st = .finished ∨
      ∃ last, (fileRows fileId st.rows).getLast? = some last ∧
        readLatest siteId fileId st = .holding last.pageId last := by
  rcases hl : (fileRows fileId st.rows).getLast? with _ | last
  · exact .inl (by simp [readLatest, currentPage, hl])
  · exact .inr ⟨last, rfl, by simp [readLatest, currentPage, hl, h.getLatest_last hl]⟩

theorem Numbered.readLatest_fresh {siteId fileId : Int} {st : State}
    (h : Numbered siteId fileId st.rows) :
    (readLatest siteId fileId st).Fresh fileId st.rows ∧
      (readLatest siteId fileId st).pending ≤ 1 := by
  rcases h.readLatest_cases with hr | ⟨last, hl, hr⟩ <;> rw [hr]
  · exact ⟨trivial, Nat.zero_le _⟩
  · exact ⟨⟨hl, rfl⟩, le_refl _⟩

theorem Request.run_fileRows_length {req : Request} (hreq : req.IsLifecycle) (b : Backend)
    (siteId fileId pageId : Int) (previous : FileRevision) (st : State) :
    (fileRows fileId ((req.call siteId fileId pageId previous).run b st).rows).length ≤
      (fileRows fileId st.rows).length + 1 := by
  rcases Request.run_lifecycle hreq b siteId fileId pageId previous st with he | ⟨r, he, hf, -⟩
  · rw [he]; omega
  · rw [he, fileRows_append_of_fileId _ _ hf, List.length_append, List.length_singleton]

/-- **A step of a request that reads fresh keeps the file numbered**: the read finds the last row,
and the write after it numbers its row next, using the room reserved for it. -/
theorem Caller.step_fresh {siteId fileId : Int} (c : Caller) (hc : c.request.IsLifecycle)
    (p : Progress) {st : State} (hn : Numbered siteId fileId st.rows) (hf : p.Fresh fileId st.rows)
    (hb : (((fileRows fileId st.rows).length + p.pending : Nat) : Int) ≤ I32_MAX) :
    Numbered siteId fileId (c.step siteId fileId p st).2.rows ∧
      (c.step siteId fileId p st).1.Fresh fileId (c.step siteId fileId p st).2.rows ∧
      (fileRows fileId (c.step siteId fileId p st).2.rows).length +
        (c.step siteId fileId p st).1.pending ≤ (fileRows fileId st.rows).length + p.pending := by
  cases p with
  | ready =>
    obtain ⟨hfr, hpe⟩ := hn.readLatest_fresh
    exact ⟨hn, hfr, Nat.add_le_add_left hpe _⟩
  | holding pageId previous =>
    obtain ⟨hl, rfl⟩ := hf
    have hlen := Request.run_fileRows_length hc c.backend siteId fileId previous.pageId previous st
    simp only [Progress.pending] at hb
    exact ⟨hn.write_last hl (by omega) hc _, trivial,
      by simp only [Caller.step, Progress.pending]; omega⟩
  | finished => exact ⟨hn, trivial, le_refl _⟩

theorem readLatest_ne_ready (siteId fileId : Int) (st : State) :
    readLatest siteId fileId st ≠ .ready := by
  unfold readLatest
  split
  · exact fun h => Progress.noConfusion h
  · split <;> exact fun h => Progress.noConfusion h

theorem Caller.step_step_ready (c : Caller) (siteId fileId : Int) (st : State) :
    (c.step siteId fileId (c.step siteId fileId .ready st).1
      (c.step siteId fileId .ready st).2).1 = .finished := by
  simp only [Caller.step]
  rcases h : readLatest siteId fileId st with _ | _ | _
  · exact absurd h (readLatest_ne_ready _ _ _)
  all_goals rfl

/-! ## Serial schedules -/

/-- One request has finished, the file is numbered, the other request has not read or holds the
file's last row, and the table has room for its write. -/
def SoloInv (siteId fileId : Int) (x : Bool) (w : Interleaved) : Prop :=
  w.progress x = .finished ∧ Numbered siteId fileId w.db.rows ∧
    (w.progress (!x)).Fresh fileId w.db.rows ∧
    (((fileRows fileId w.db.rows).length + (w.progress (!x)).pending : Nat) : Int) ≤ I32_MAX

theorem SoloInv.step {siteId fileId : Int} {callers : Bool → Caller}
    (hc : ∀ i, (callers i).request.IsLifecycle) {x : Bool} {w : Interleaved}
    (h : SoloInv siteId fileId x w) (i : Bool) :
    SoloInv siteId fileId x (w.step siteId fileId callers i) := by
  by_cases hi : i = x
  · subst hi; rwa [Interleaved.step_finished h.1]
  obtain rfl : i = !x := Bool.eq_not_of_ne hi
  obtain ⟨hx, hn, hf, hb⟩ := h
  obtain ⟨hn', hf', hb'⟩ := Caller.step_fresh (callers (!x)) (hc (!x)) _ hn hf hb
  refine ⟨by rw [Interleaved.step_progress_ne _ (Ne.symm hi), hx], ?_, ?_, ?_⟩ <;>
    simp only [Interleaved.step_db, Interleaved.step_progress_self]
  · exact hn'
  · exact hf'
  · omega

/-! ## Stale reads -/

/-- Both requests read the last row `last` of the `N` rows `F` the file had: each still holds it
or has finished, and every row of the file written since is numbered `N`. -/
def StaleInv (fileId : Int) (F : List FileRevision) (last : FileRevision) (w : Interleaved) :
    Prop :=
  (∀ i, w.progress i = .finished ∨ w.progress i = .holding last.pageId last) ∧
    ∃ extra, fileRows fileId w.db.rows = F ++ extra ∧
      (∀ r ∈ extra, r.revisionNumber = F.length) ∧
      extra.length + (w.progress true).pending + (w.progress false).pending ≤ 2

theorem StaleInv.step {siteId fileId : Int} {callers : Bool → Caller}
    (hc : ∀ i, (callers i).request.IsLifecycle) {F : List FileRevision} {last : FileRevision}
    (h0 : 0 ≤ last.revisionNumber) (hnum : last.revisionNumber + 1 = F.length)
    (hmax : last.revisionNumber < I32_MAX)
    {w : Interleaved} (h : StaleInv fileId F last w) (i : Bool) :
    StaleInv fileId F last (w.step siteId fileId callers i) := by
  obtain ⟨hp, extra, he, hex, hlen⟩ := h
  rcases hp i with hi | hi
  · rw [Interleaved.step_finished hi]; exact ⟨hp, extra, he, hex, hlen⟩
  have hprog : ∀ j, (w.step siteId fileId callers i).progress j =
      if j = i then .finished else w.progress j := fun j => by
    split_ifs with hj
    · subst hj; simp [hi, Caller.step]
    · exact Interleaved.step_progress_ne _ hj
  have hpend : (w.progress i).pending = 1 := by rw [hi]; rfl
  have hsum : ((w.step siteId fileId callers i).progress true).pending +
      ((w.step siteId fileId callers i).progress false).pending + 1 =
      (w.progress true).pending + (w.progress false).pending := by
    cases i <;> simp only [hprog, Bool.true_eq_false, Bool.false_eq_true, if_true, if_false,
      Progress.pending_finished] <;> omega
  refine ⟨fun j => ?_, ?_⟩
  · rw [hprog j]; split_ifs
    · exact .inl rfl
    · exact hp j
  simp only [Interleaved.step_db, hi, Caller.step]
  rcases Request.run_lifecycle (hc i) (callers i).backend siteId fileId last.pageId last w.db with
    hr | ⟨r, hr, hf, -, hrn⟩
  · exact ⟨extra, by rw [hr, he], hex, by omega⟩
  · refine ⟨extra ++ [r], by rw [hr, fileRows_append_of_fileId _ _ hf, he, List.append_assoc],
      fun s hs => ?_, ?_⟩
    · rcases List.mem_append.1 hs with hs | hs
      · exact hex s hs
      · rw [List.mem_singleton.1 hs, hrn, wrappingAdd_one h0 hmax]; omega
    · rw [List.length_append, List.length_singleton]; omega

theorem StaleInv.numbers {fileId : Int} {F : List FileRevision} {last : FileRevision}
    {w : Interleaved} (h : StaleInv fileId F last w)
    (hF : F.map (·.revisionNumber) = (List.range F.length).map fun i : Nat => (i : Int))
    (hlen : (fileRows fileId w.db.rows).length = F.length + 2) :
    (fileRows fileId w.db.rows).map (·.revisionNumber) =
      (List.range F.length).map (fun i : Nat => (i : Int)) ++ [(F.length : Int), F.length] := by
  obtain ⟨-, extra, he, hex, -⟩ := h
  rw [he, List.length_append] at hlen
  obtain ⟨a, b, rfl⟩ := List.length_eq_two.1 (by omega : extra.length = 2)
  simp [he, hF, hex a (by simp), hex b (by simp)]

/-! ## Every interleaving -/

section Start

variable {siteId fileId : Int} {callers : Bool → Caller}

/-- **A serial start**: once request `x` has read and written, the file is numbered and the other
request, not started, has room for its write. -/
theorem SoloInv.start (hc : ∀ i, (callers i).request.IsLifecycle) {st : State}
    (h : Numbered siteId fileId st.rows)
    (hb : ((fileRows fileId st.rows).length + 2 : Int) ≤ I32_MAX) (x : Bool) :
    SoloInv siteId fileId x
      (((⟨fun _ => .ready, st⟩ : Interleaved).step siteId fileId callers x).step siteId fileId
        callers x) := by
  have hxx : (!x) ≠ x := by cases x <;> decide
  set w₁ := (⟨fun _ => .ready, st⟩ : Interleaved).step siteId fileId callers x
  have hp₁ : w₁.progress x = ((callers x).step siteId fileId .ready st).1 := by
    rw [Interleaved.step_progress_self]
  have hdb₁ : w₁.db = ((callers x).step siteId fileId .ready st).2 := rfl
  have hfin := Caller.step_step_ready (callers x) siteId fileId st
  obtain ⟨hn₁, hf₁, hb₁⟩ := Caller.step_fresh (callers x) (hc x) .ready h trivial
    (by simp only [Progress.pending_ready]; omega)
  simp only [Progress.pending_ready] at hb₁
  obtain ⟨hn₂, -, hb₂⟩ := Caller.step_fresh (callers x) (hc x) _ hn₁ hf₁ (by omega)
  rw [hfin, Progress.pending_finished] at hb₂
  refine ⟨?_, ?_, ?_, ?_⟩
  · rw [Interleaved.step_progress_self, hp₁, hdb₁]; exact hfin
  · rw [Interleaved.step_db, hp₁, hdb₁]; exact hn₂
  · rw [Interleaved.step_progress_ne _ hxx, Interleaved.step_progress_ne _ hxx]; trivial
  · rw [Interleaved.step_progress_ne _ hxx, Interleaved.step_progress_ne _ hxx,
      Interleaved.step_db, hp₁, hdb₁, Progress.pending_ready]
    omega

/-- **A stale start**: after one step of each request, both have read the unchanged database. -/
theorem Interleaved.reads_first (siteId fileId : Int) (callers : Bool → Caller) (st : State)
    (x : Bool) :
    (∀ i, (((⟨fun _ => .ready, st⟩ : Interleaved).step siteId fileId callers x).step siteId
        fileId callers (!x)).progress i = readLatest siteId fileId st) ∧
      (((⟨fun _ => .ready, st⟩ : Interleaved).step siteId fileId callers x).step siteId fileId
        callers (!x)).db = st := by
  have hxx : (!x) ≠ x := by cases x <;> decide
  refine ⟨fun i => ?_, by rw [Interleaved.step_db, Interleaved.step_progress_ne _ hxx]; rfl⟩
  rcases Bool.eq_or_eq_not i x with rfl | rfl
  · rw [Interleaved.step_progress_ne _ (Ne.symm hxx), Interleaved.step_progress_self]; rfl
  · rw [Interleaved.step_progress_self, Interleaved.step_progress_ne _ hxx]; rfl

end Start

/-- **Two requests duplicate a number exactly when both read before either writes.**  On a file
numbered `0, …, N - 1` with room for two more revisions below `2^31`, let two tombstone or
resurrection requests run in any interleaving.  When the schedule starts with two steps of one
request (its read and its write come first), the file is still numbered `0, 1, …` at the end.
When it starts with one step of each, both read the same `previous`, and if both writes land, the
file's numbers are `0, …, N - 1, N, N`. -/
theorem interleaved_lifecycle_numbering {siteId fileId : Int} (callers : Bool → Caller)
    (hc : ∀ i, (callers i).request.IsLifecycle) {st : State} (h : Numbered siteId fileId st.rows)
    (hb : ((fileRows fileId st.rows).length + 2 : Int) ≤ I32_MAX) (x : Bool)
    (schedule : List Bool) :
    Numbered siteId fileId
      (Interleaved.run siteId fileId callers ⟨fun _ => .ready, st⟩ (x :: x :: schedule)).db.rows ∧
    ((fileRows fileId (Interleaved.run siteId fileId callers ⟨fun _ => .ready, st⟩
        (x :: (!x) :: schedule)).db.rows).length = (fileRows fileId st.rows).length + 2 →
      (fileRows fileId (Interleaved.run siteId fileId callers ⟨fun _ => .ready, st⟩
        (x :: (!x) :: schedule)).db.rows).map (·.revisionNumber) =
        (List.range (fileRows fileId st.rows).length).map (fun i : Nat => (i : Int)) ++
          [((fileRows fileId st.rows).length : Int), ((fileRows fileId st.rows).length : Int)]) := by
  constructor
  · -- the serial schedule: `x` reads and writes, then `!x` runs alone
    exact (Interleaved.run_of_step _ (fun w i hw => hw.step hc i) schedule _
      (SoloInv.start hc h hb x)).2.1
  · -- both read on `st` before either writes
    obtain ⟨hp₂, hdb₂⟩ := Interleaved.reads_first siteId fileId callers st x
    set w₂ := ((⟨fun _ => .ready, st⟩ : Interleaved).step siteId fileId callers x).step siteId
      fileId callers (!x)
    have hrun : Interleaved.run siteId fileId callers ⟨fun _ => .ready, st⟩
        (x :: (!x) :: schedule) = w₂.run siteId fileId callers schedule := rfl
    rw [hrun]
    rcases h.readLatest_cases with hr | ⟨last, hl, hr⟩
    · -- the file has no row: neither request writes
      intro hlen
      rw [Interleaved.run_of_step (fun v => v = w₂) (fun v i hv => by
        subst hv; exact Interleaved.step_finished ((hp₂ i).trans hr)) schedule _ rfl, hdb₂] at hlen
      omega
    · have h0 := (h.bounds (List.mem_of_getLast?_eq_some hl)).1
      have hnum := h.last hl
      have hstale : StaleInv fileId (fileRows fileId st.rows) last w₂ :=
        ⟨fun i => .inr ((hp₂ i).trans hr), [], by rw [hdb₂, List.append_nil], by simp,
          by simp [hp₂, hr]⟩
      exact (Interleaved.run_of_step _ (fun v i hv => hv.step hc h0 hnum (by omega) i)
        schedule _ hstale).numbers h.2

/-- The scenario's file, then two tombstone requests in the serial and in the stale order; in
both schedules both requests write, so the stale order stores the number 1 twice. -/
theorem interleaved_lifecycle_numbering_scenario :
    ∃ st, FileRun Request.IsLifecycle 1 5 st ∧
      (fileRows 5 (Interleaved.run 1 5 tombstoneCallers ⟨fun _ => .ready, st⟩
          [true, false, true, false, false]).db.rows).length = (fileRows 5 st.rows).length + 2 ∧
      Numbered 1 5 (Interleaved.run 1 5 tombstoneCallers ⟨fun _ => .ready, st⟩
        [true, true, true, false, false]).db.rows ∧
      ((fileRows 5 (Interleaved.run 1 5 tombstoneCallers ⟨fun _ => .ready, st⟩
          [true, false, true, false, false]).db.rows).length = (fileRows 5 st.rows).length + 2 →
        (fileRows 5 (Interleaved.run 1 5 tombstoneCallers ⟨fun _ => .ready, st⟩
          [true, false, true, false, false]).db.rows).map (·.revisionNumber) =
          (List.range (fileRows 5 st.rows).length).map (fun i : Nat => (i : Int)) ++
            [((fileRows 5 st.rows).length : Int), ((fileRows 5 st.rows).length : Int)]) :=
  have hr : FileRun Request.IsLifecycle 1 5 _ :=
    .first ⟨[], []⟩ Backend.allOk scenarioFirst _ rfl rfl rfl rfl
  ⟨_, hr, by decide, interleaved_lifecycle_numbering tombstoneCallers (fun i => by cases i <;> trivial)
    (hr.numbered (by decide)) (by decide) true [true, false, false]⟩

end Deepwell
