import Mathlib.Data.List.Chain

/-!
# The pieces a text is cut into

`substitute` rewrites some runs of characters to one character each and leaves every other
character as it is.  To say which, a text is cut into pieces: a character left as it is, or a run
that one of the passes rewrites.

* `Quote`, `Piece` — the pieces: ``` `` ``` to `“`, `,,` to `„`, `''` to `”`, `` ` `` to `‘`,
  `'` to `’`, `...` and `. . .` to `…`, and a character left as it is; a quote piece carries the
  label of the pair it belongs to;
* `PairedAt k ws` — the pieces labelled `k` are none, or an opening piece and a later closing
  piece of its kind, with no newline between them;
* `DotsIsolated ws` — no ellipsis piece follows or precedes a `.`;
* `Scan` — the reading of the pieces of one label from left to right; `pairedAt_of_run`:
  **a reading that ends before or after the pair is a `PairedAt`**;
* `dotsIsolated_of_chain` — **neighbouring pieces that are `Apart` leave every ellipsis piece
  isolated**.
-/

set_option autoImplicit false

namespace Ftml

/-- The pieces the three quote passes write. -/
inductive Quote where
  /-- The opening ``` `` ``` of `DOUBLE_QUOTES`, to `“`. -/
  | doubleOpen
  /-- The opening `,,` of `LOW_DOUBLE_QUOTES`, to `„`. -/
  | lowOpen
  /-- The closing `''` of both, to `”`. -/
  | doubleClose
  /-- The opening `` ` `` of `SINGLE_QUOTES`, to `‘`. -/
  | singleOpen
  /-- The closing `'` of `SINGLE_QUOTES`, to `’`. -/
  | singleClose
  deriving DecidableEq, Repr

namespace Quote

/-- The text the piece stands for. -/
def source : Quote → List Char
  | doubleOpen => ['\x60', '\x60']
  | lowOpen => [',', ',']
  | doubleClose => ['\'', '\'']
  | singleOpen => ['\x60']
  | singleClose => ['\'']

/-- The character written for the piece. -/
def out : Quote → Char
  | doubleOpen => '“'
  | lowOpen => '„'
  | doubleClose => '”'
  | singleOpen => '‘'
  | singleClose => '’'

/-- The closing piece of an opening piece. -/
def closer : Quote → Option Quote
  | doubleOpen => some doubleClose
  | lowOpen => some doubleClose
  | singleOpen => some singleClose
  | doubleClose => none
  | singleClose => none

end Quote

/-- A piece of a text: a character `substitute` leaves as it is, a quote piece of the pair
labelled `label`, or a `repl` group of the ellipsis pass (`. . .` when `spaced`). -/
inductive Piece where
  | keep (c : Char)
  | quote (q : Quote) (label : Nat)
  | ellipsis (spaced : Bool)
  deriving DecidableEq, Repr

/-- A character no pass writes, and not a newline. -/
def Plain (x : Char) : Prop := x ∉ ['“', '„', '”', '‘', '’', '…', '\n']

instance : DecidablePred Plain := fun _ => inferInstanceAs (Decidable (_ ∉ _))

namespace Piece

/-- The text the piece stands for. -/
def source : Piece → List Char
  | keep c => [c]
  | quote q _ => q.source
  | ellipsis false => ['.', '.', '.']
  | ellipsis true => ['.', ' ', '.', ' ', '.']

/-- The character written for the piece. -/
def out : Piece → Char
  | keep c => c
  | quote q _ => q.out
  | ellipsis _ => '…'

def label : Piece → Option Nat
  | quote _ k => some k
  | _ => none

def isEllipsis : Piece → Bool
  | ellipsis _ => true
  | _ => false

/-- Neighbouring pieces with no `.` next to an ellipsis piece across their boundary. -/
def Apart (x y : Piece) : Prop :=
  (x.isEllipsis → y.source.head? ≠ some '.') ∧ (y.isEllipsis → x.source.getLast? ≠ some '.')

@[simp] theorem source_keep (c : Char) : (keep c).source = [c] := rfl
@[simp] theorem out_keep (c : Char) : (keep c).out = c := rfl
@[simp] theorem label_keep (c : Char) : (keep c).label = none := rfl
@[simp] theorem isEllipsis_keep (c : Char) : (keep c).isEllipsis = false := rfl
@[simp] theorem source_quote (q : Quote) (k : Nat) : (quote q k).source = q.source := rfl
@[simp] theorem out_quote (q : Quote) (k : Nat) : (quote q k).out = q.out := rfl
@[simp] theorem label_quote (q : Quote) (k : Nat) : (quote q k).label = some k := rfl
@[simp] theorem isEllipsis_quote (q : Quote) (k : Nat) : (quote q k).isEllipsis = false := rfl
@[simp] theorem out_ellipsis (spaced : Bool) : (ellipsis spaced).out = '…' := rfl
@[simp] theorem label_ellipsis (spaced : Bool) : (ellipsis spaced).label = none := rfl
@[simp] theorem isEllipsis_ellipsis (spaced : Bool) : (ellipsis spaced).isEllipsis = true := rfl

theorem source_ne_nil : ∀ p : Piece, p.source ≠ []
  | keep _ => by simp
  | quote q _ => by cases q <;> simp [Quote.source]
  | ellipsis b => by cases b <;> simp [source]

/-- Only quote pieces carry a label. -/
theorem eq_quote_of_label {p : Piece} {k : Nat} (h : p.label = some k) : ∃ q, p = quote q k := by
  cases p <;> simp_all

@[simp] theorem flatMap_map_keep (l : List Char) : (l.map keep).flatMap source = l := by
  induction l <;> simp_all

/-- **A piece written as a plain character is that character left as it is.** -/
theorem eq_keep_of_out {p : Piece} {x : Char} (h : p.out = x) (hx : Plain x) : p = keep x := by
  subst h
  cases p with
  | keep c => rfl
  | quote q k => cases q <;> simp [Plain, out, Quote.out] at hx
  | ellipsis _ => simp [Plain, out] at hx

/-- Only a newline left as it is stands for a newline. -/
theorem newline_not_mem_source {p : Piece} (h : p.out ≠ '\n') : '\n' ∉ p.source := by
  cases p with
  | keep c => simpa [eq_comm] using h
  | quote q k => cases q <;> simp [Quote.source]
  | ellipsis b => cases b <;> simp [source]

/-- A piece other than an ellipsis piece, written as a character other than `.`, neither starts
nor ends with `.`. -/
theorem source_ends_ne_dot {p : Piece} (he : p.isEllipsis = false) (ho : p.out ≠ '.') :
    p.source.head? ≠ some '.' ∧ p.source.getLast? ≠ some '.' := by
  cases p with
  | keep c => simpa using ho
  | quote q k => cases q <;> simp [Quote.source]
  | ellipsis _ => cases he

theorem Apart.of_isEllipsis {x y : Piece} (hx : x.isEllipsis = false) (hy : y.isEllipsis = false) :
    Apart x y :=
  ⟨fun h => absurd h (by simp [hx]), fun h => absurd h (by simp [hy])⟩

/-- A piece apart from a following `.` is not an ellipsis piece. -/
theorem Apart.isEllipsis_left {x : Piece} (h : Apart x (keep '.')) : x.isEllipsis = false :=
  Bool.eq_false_iff.2 fun he => h.1 he rfl

/-- A piece apart from a preceding `.` is not an ellipsis piece. -/
theorem Apart.isEllipsis_right {y : Piece} (h : Apart (keep '.') y) : y.isEllipsis = false :=
  Bool.eq_false_iff.2 fun he => h.2 he rfl

/-- **The piece before a `repl` group is apart from the ellipsis piece that replaces it**, when
it is written as a character other than `.`. -/
theorem Apart.ellipsis_of_left {x : Piece} (h : Apart x (keep '.')) (ho : x.out ≠ '.')
    (spaced : Bool) : Apart x (ellipsis spaced) :=
  ⟨fun he => absurd he (by simp [h.isEllipsis_left]),
    fun _ => (source_ends_ne_dot h.isEllipsis_left ho).2⟩

/-- **The piece after a `repl` group is apart from the ellipsis piece that replaces it**, when
it is written as a character other than `.`. -/
theorem Apart.ellipsis_of_right {y : Piece} (h : Apart (keep '.') y) (ho : y.out ≠ '.')
    (spaced : Bool) : Apart (ellipsis spaced) y :=
  ⟨fun _ => (source_ends_ne_dot h.isEllipsis_right ho).1,
    fun he => absurd he (by simp [h.isEllipsis_right])⟩

end Piece

open Piece

/-! ## What the cutting must meet -/

/-- The pieces labelled `k` are none, or an opening piece and a later closing piece of its kind,
with no newline of the text between them. -/
def PairedAt (k : Nat) (ws : List Piece) : Prop :=
  (∀ p ∈ ws, p.label ≠ some k) ∨
    ∃ A qo C qc D, ws = A ++ quote qo k :: (C ++ quote qc k :: D) ∧ qo.closer = some qc ∧
      (∀ p ∈ A ++ C ++ D, p.label ≠ some k) ∧ '\n' ∉ C.flatMap source

/-- No ellipsis piece follows or precedes a `.` of the text. -/
def DotsIsolated (ws : List Piece) : Prop :=
  ∀ A spaced B, ws = A ++ ellipsis spaced :: B →
    (A.flatMap source).getLast? ≠ some '.' ∧ (B.flatMap source).head? ≠ some '.'

/-! ## Reading the pieces of one label -/

/-- Where a reading of the pieces from left to right is with respect to the pair labelled `k`. -/
inductive Scan where
  /-- No piece labelled `k` read. -/
  | before
  /-- The opening piece read, waiting for `closer`. -/
  | within (closer : Quote)
  /-- The pair read. -/
  | after
  /-- A piece that `PairedAt k` does not allow. -/
  | broken
  deriving DecidableEq, Repr

namespace Scan

def next (k : Nat) : Scan → Piece → Scan
  | before, quote q k' => if k' = k then q.closer.elim broken within else before
  | within c, quote q k' => if k' = k then (if q = c then after else broken) else within c
  | within c, keep x => if x = '\n' then broken else within c
  | after, quote _ k' => if k' = k then broken else after
  | s, _ => s

def run (k : Nat) (ws : List Piece) : Scan := ws.foldl (next k) before

@[simp] theorem next_broken (k : Nat) (p : Piece) : next k broken p = broken := by
  cases p <;> rfl

@[simp] theorem foldl_broken (k : Nat) : ∀ ws : List Piece, ws.foldl (next k) broken = broken
  | [] => rfl
  | p :: ws => by rw [List.foldl_cons, next_broken, foldl_broken k ws]

/-- A piece of another label, with no newline, leaves the reading where it is. -/
theorem next_of_label_ne {k : Nat} {p : Piece} (hl : p.label ≠ some k) (hn : '\n' ∉ p.source)
    (s : Scan) : next k s p = s := by
  cases s <;> cases p <;> simp_all [next, eq_comm]

/-- Before or after the pair, a piece of another label leaves the reading where it is. -/
theorem next_of_outside {k : Nat} {p : Piece} (hl : p.label ≠ some k) {s : Scan}
    (hs : s = before ∨ s = after) : next k s p = s := by
  rcases hs with rfl | rfl <;> cases p <;> simp_all [next]

theorem foldl_of_label_ne {k : Nat} {ws : List Piece}
    (h : ∀ p ∈ ws, p.label ≠ some k ∧ '\n' ∉ p.source) (s : Scan) : ws.foldl (next k) s = s := by
  induction ws with
  | nil => rfl
  | cons p ws ih =>
    rw [List.foldl_cons, next_of_label_ne (h p (by simp)).1 (h p (by simp)).2,
      ih fun q hq => h q (by simp [hq])]

theorem foldl_of_outside {k : Nat} {ws : List Piece} (h : ∀ p ∈ ws, p.label ≠ some k) {s : Scan}
    (hs : s = before ∨ s = after) : ws.foldl (next k) s = s := by
  induction ws with
  | nil => rfl
  | cons p ws ih =>
    rw [List.foldl_cons, next_of_outside (h p (by simp)) hs, ih fun q hq => h q (by simp [hq])]

theorem next_ne_before {k : Nat} {s : Scan} (hs : s ≠ before) (p : Piece) :
    next k s p ≠ before := by
  cases s <;> cases p <;> simp_all [next] <;> split_ifs <;> simp

theorem foldl_ne_before {k : Nat} : ∀ {ws : List Piece} {s : Scan}, s ≠ before →
    ws.foldl (next k) s ≠ before
  | [], _, hs => hs
  | p :: _, _, hs => by rw [List.foldl_cons]; exact foldl_ne_before (next_ne_before hs p)

/-- After the pair, no piece of its label follows. -/
theorem foldl_after {k : Nat} : ∀ {ws : List Piece}, ws.foldl (next k) after = after →
    ∀ p ∈ ws, p.label ≠ some k
  | [], _ => by simp
  | p :: ws, h => by
    rw [List.foldl_cons] at h
    by_cases hp : p.label = some k
    · obtain ⟨q, rfl⟩ := eq_quote_of_label hp
      simp [next] at h
    · rw [next_of_outside hp (.inr rfl)] at h
      exact List.forall_mem_cons.2 ⟨hp, foldl_after h⟩

/-- From the opening piece, the reading reaches the end of the pair at its closing piece, past
pieces of other labels and no newline. -/
theorem foldl_within {k : Nat} : ∀ {ws : List Piece} {c : Quote},
    ws.foldl (next k) (within c) = after →
    ∃ C D, ws = C ++ quote c k :: D ∧ (∀ p ∈ C, p.label ≠ some k ∧ '\n' ∉ p.source) ∧
      ∀ p ∈ D, p.label ≠ some k
  | [], _, h => by cases h
  | p :: ws, c, h => by
    rw [List.foldl_cons] at h
    by_cases hp : p.label ≠ some k ∧ '\n' ∉ p.source
    · rw [next_of_label_ne hp.1 hp.2] at h
      obtain ⟨C, D, rfl, hC, hD⟩ := foldl_within h
      exact ⟨p :: C, D, rfl, List.forall_mem_cons.2 ⟨hp, hC⟩, hD⟩
    · cases p with
      | keep x =>
        obtain rfl : x = '\n' := by simpa [eq_comm] using hp
        simp [next] at h
      | ellipsis b => exact absurd ⟨by simp [label], by cases b <;> simp [source]⟩ hp
      | quote q k' =>
        obtain rfl : k' = k := by
          by_contra hk
          exact hp ⟨by simpa using hk, by cases q <;> simp [Quote.source]⟩
        by_cases hq : q = c
        · subst hq
          simp only [next, if_true] at h
          exact ⟨[], ws, rfl, by simp, foldl_after h⟩
        · simp [next, hq] at h

/-- **A reading that ends before or after the pair is a `PairedAt`.** -/
theorem pairedAt_of_run {k : Nat} : ∀ {ws : List Piece},
    (ws.foldl (next k) before = before ∨ ws.foldl (next k) before = after) → PairedAt k ws
  | [], _ => .inl (by simp)
  | p :: ws, h => by
    rw [List.foldl_cons] at h
    by_cases hp : p.label = some k
    · obtain ⟨q, rfl⟩ := eq_quote_of_label hp
      cases hc : q.closer with
      | none => simp [next, hc] at h
      | some c =>
        simp only [next, if_true, hc, Option.elim_some] at h
        rcases h with h | h
        · exact absurd h (foldl_ne_before (by simp))
        obtain ⟨C, D, rfl, hC, hD⟩ := foldl_within h
        refine .inr ⟨[], q, C, c, D, rfl, hc, ?_, ?_⟩
        · simp only [List.nil_append, List.mem_append]
          rintro p (hp | hp)
          exacts [(hC p hp).1, hD p hp]
        · simp only [List.mem_flatMap, not_exists, not_and]
          exact fun p hp => (hC p hp).2
    · rw [next_of_outside hp (.inl rfl)] at h
      rcases pairedAt_of_run h with h' | ⟨A, qo, C, qc, D, rfl, hq, hl, hn⟩
      · exact .inl (List.forall_mem_cons.2 ⟨hp, h'⟩)
      · refine .inr ⟨p :: A, qo, C, qc, D, rfl, hq, ?_, hn⟩
        simp only [List.cons_append, List.forall_mem_cons]
        exact ⟨hp, hl⟩

end Scan

/-! ## Isolated ellipsis pieces -/

theorem getLast?_flatMap_concat (A : List Piece) (x : Piece) :
    ((A ++ [x]).flatMap source).getLast? = x.source.getLast? := by
  rw [List.flatMap_append, List.flatMap_singleton, List.getLast?_append_of_ne_nil _ x.source_ne_nil]

theorem head?_flatMap_cons (y : Piece) (B : List Piece) :
    ((y :: B).flatMap source).head? = y.source.head? := by
  obtain ⟨a, l, h⟩ := List.exists_cons_of_ne_nil y.source_ne_nil
  simp [h]

/-- **Neighbouring pieces that are apart leave every ellipsis piece isolated.** -/
theorem dotsIsolated_of_chain {ws : List Piece} (h : ws.Chain' Apart) : DotsIsolated ws := by
  rintro A spaced B rfl
  obtain ⟨-, hE, hj⟩ := List.chain'_append.1 h
  constructor
  · rcases List.eq_nil_or_concat A with rfl | ⟨A', x, rfl⟩
    · simp
    · rw [List.concat_eq_append] at hj ⊢
      rw [getLast?_flatMap_concat]
      exact (hj x (by simp) _ rfl).2 rfl
  · cases B with
    | nil => simp
    | cons y B =>
      rw [head?_flatMap_cons]
      exact (List.chain'_cons.1 hE).1.1 rfl

end Ftml
