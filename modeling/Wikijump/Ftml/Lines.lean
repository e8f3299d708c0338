import Wikijump.Ftml.Idempotence

/-!
# `substitute` works line by line

No regex of `substitute` reads across a newline: `(.*?)` stops at one, no delimiter holds one,
and the `[^\.]` around a `repl` group accepts a newline where a line alone would have `^` or
`$`.  Each loop replaces the leftmost match, so it settles the first line before it touches the
second.  Hence **`substitute (a ++ "\n" ++ b) = substitute a ++ "\n" ++ substitute b`**.

* `iterate` — a loop that applies a partial step until it fails, at most `fuel` times;
  `surroundLoop_eq_iterate`, `rescanLoop_eq_iterate` — both loops of `Replacer::replace` are
  such loops (the offset loop through `replaceLoop_eq_rescanLoop`);
* `LineLocal` — one step on two lines is a step on the first, or on the second when the first
  has none; `iterate_append_newline` — **a line-local loop settles the first line, then the
  second**;
* `surroundCaptures_append_newline`, `ellipsisCapturesAt_append_newline` — the leftmost match on
  two lines, for both regexes;
* `regexSurround_replace_lines`, `horizontalEllipsis_replace_lines` — each pass works line by
  line;
* `substitute_lines` — the four passes.
-/

set_option autoImplicit false

namespace Ftml

/-! ## Loops of a partial step -/

/-- Apply `step` until it fails, at most `fuel` times. -/
def iterate (step : List Char → Option (List Char)) : Nat → List Char → List Char
  | 0, text => text
  | fuel + 1, text =>
    match step text with
    | none => text
    | some text' => iterate step fuel text'

/-- One step on two lines is a step on the first, or on the second when the first has none. -/
def LineLocal (step : List Char → Option (List Char)) : Prop :=
  ∀ a b, step (a ++ '\n' :: b) =
    match step a with
    | some a' => some (a' ++ '\n' :: b)
    | none => (step b).map fun b' => a ++ '\n' :: b'

section Iterate

variable {step : List Char → Option (List Char)}

theorem iterate_of_settled {text : List Char} (h : step text = none) :
    ∀ fuel, iterate step fuel text = text
  | 0 => rfl
  | _ + 1 => by simp [iterate, h]

/-- More iterations change nothing once the step fails. -/
theorem iterate_eq_of_settled : ∀ {n m : Nat} {text : List Char}, n ≤ m →
    step (iterate step n text) = none → iterate step m text = iterate step n text
  | 0, m, _, _, h => iterate_of_settled h m
  | _ + 1, 0, _, hnm, _ => absurd hnm (by omega)
  | n + 1, m + 1, text, hnm, h => by
    simp only [iterate] at h ⊢
    rcases hs : step text with _ | t
    · rfl
    · rw [hs] at h
      exact iterate_eq_of_settled (Nat.le_of_succ_le_succ hnm) h

/-- With the first line settled, the loop runs on the second. -/
theorem iterate_append_settled (hl : LineLocal step) {a : List Char} (ha : step a = none) :
    ∀ fuel b, iterate step fuel (a ++ '\n' :: b) = a ++ '\n' :: iterate step fuel b
  | 0, _ => rfl
  | fuel + 1, b => by
    simp only [iterate, hl a b, ha]
    rcases step b with _ | b'
    · rfl
    · exact iterate_append_settled hl ha fuel b'

/-- **A line-local loop settles the first line, then the second**: `n` iterations that settle
`a` and `m` that settle `b` make `n + m` iterations on `a ++ '\n' :: b`. -/
theorem iterate_append_newline (hl : LineLocal step) :
    ∀ (n : Nat) (a : List Char), step (iterate step n a) = none →
    ∀ (m : Nat) (b : List Char), step (iterate step m b) = none →
    iterate step (n + m) (a ++ '\n' :: b) = iterate step n a ++ '\n' :: iterate step m b
  | 0, a, ha, m, b, _ => by rw [Nat.zero_add]; exact iterate_append_settled hl ha m b
  | n + 1, a, ha, m, b, hb => by
    rw [Nat.add_right_comm]
    rcases hs : step a with _ | a'
    · -- `a` has nothing to replace: the loop runs on `b`, which `m` iterations settle
      have hm := iterate_eq_of_settled (show m ≤ n + m + 1 by omega) hb
      rw [iterate_of_settled hs, iterate_append_settled hl hs, hm]
    · simp only [iterate, hl a b, hs] at ha ⊢
      exact iterate_append_newline hl n a' ha m b hb

end Iterate

/-! ## The quote passes -/

theorem isPrefixOf_append_newline {l : List Char} (hl : '\n' ∉ l) (hne : l ≠ []) :
    ∀ x y, l.isPrefixOf (x ++ '\n' :: y) = l.isPrefixOf x := by
  obtain ⟨c, l, rfl⟩ := List.exists_cons_of_ne_nil hne
  intro x y
  induction x generalizing c l with
  | nil =>
    have hc : c ≠ '\n' := fun h => hl (h ▸ List.mem_cons_self _ _)
    simp [List.isPrefixOf, hc]
  | cons d x ih =>
    simp only [List.cons_append, List.isPrefixOf, List.append_eq]
    rcases l with _ | ⟨c', l⟩
    · simp [List.isPrefixOf]
    · rw [ih c' l (fun h => hl (List.mem_cons_of_mem _ h)) (List.cons_ne_nil _ _)]

variable {openDelim close : List Char}

/-- `(.*?)close` stops at a newline. -/
theorem lazyUntil_append_newline (hc : '\n' ∉ close) (hne : close ≠ []) :
    ∀ x y, lazyUntil close (x ++ '\n' :: y) =
      (lazyUntil close x).map fun r => (r.1, r.2 ++ '\n' :: y)
  | [], y => by
    have h := isPrefixOf_append_newline hc hne [] y
    simp only [List.nil_append] at h
    simp [lazyUntil, h, List.isPrefixOf_nil_left, hne]
  | c :: x, y => by
    have hp := isPrefixOf_append_newline hc hne (c :: x) y
    rw [List.cons_append] at hp ⊢
    simp only [lazyUntil, hp]
    split_ifs with h1 h2
    · have hlen := (List.isPrefixOf_iff_prefix.1 h1).length_le
      rw [← List.cons_append, List.drop_append_of_le_length hlen]
      rfl
    · rfl
    · rw [lazyUntil_append_newline hc hne x y]
      cases lazyUntil close x <;> rfl

/-- **The leftmost match of `open(.*?)close` on two lines** is the leftmost match on the first,
or, when the first has none, on the second. -/
theorem surroundCaptures_append_newline (hon : '\n' ∉ openDelim) (ho : openDelim ≠ [])
    (hcn : '\n' ∉ close) (hc : close ≠ []) :
    ∀ x y, surroundCaptures openDelim close (x ++ '\n' :: y) =
      match surroundCaptures openDelim close x with
      | some r => some (r.1, r.2.1, r.2.2 ++ '\n' :: y)
      | none => (surroundCaptures openDelim close y).map fun r => (x ++ '\n' :: r.1, r.2.1, r.2.2)
  | [], y => by
    have h := isPrefixOf_append_newline hon ho [] y
    simp only [List.nil_append] at h
    simp only [List.nil_append, surroundCaptures, h]
    simp [ho, List.isPrefixOf_nil_left]
  | c :: x, y => by
    have hp := isPrefixOf_append_newline hon ho (c :: x) y
    rw [List.cons_append] at hp ⊢
    simp only [surroundCaptures, hp]
    have ih := surroundCaptures_append_newline hon ho hcn hc x y
    by_cases h1 : openDelim.isPrefixOf (c :: x) = true
    · have hlen := (List.isPrefixOf_iff_prefix.1 h1).length_le
      rw [if_pos h1, if_pos h1, ← List.cons_append, List.drop_append_of_le_length hlen,
        lazyUntil_append_newline hcn hc]
      rcases lazyUntil close ((c :: x).drop openDelim.length) with _ | ⟨content, after⟩
      · simp only [Option.map_none', ih]
        rcases surroundCaptures openDelim close x with _ | r <;> simp [Function.comp_def]
      · rfl
    · simp only [if_neg h1, ih]
      rcases surroundCaptures openDelim close x with _ | r <;> simp [Function.comp_def]

/-- One iteration of the `RegexSurround` loop. -/
def surroundNext (openDelim close begin ending text : List Char) : Option (List Char) :=
  (surroundCaptures openDelim close text).map fun r => r.1 ++ begin ++ r.2.1 ++ ending ++ r.2.2

theorem surroundLoop_eq_iterate (begin ending : List Char) :
    ∀ fuel text, surroundLoop openDelim close begin ending fuel text =
      iterate (surroundNext openDelim close begin ending) fuel text
  | 0, _ => rfl
  | fuel + 1, text => by
    simp only [surroundLoop, iterate, surroundNext]
    rcases surroundCaptures openDelim close text with _ | ⟨before, content, after⟩
    · rfl
    · exact surroundLoop_eq_iterate begin ending fuel _

theorem surroundNext_lineLocal (hon : '\n' ∉ openDelim) (ho : openDelim ≠ [])
    (hcn : '\n' ∉ close) (hc : close ≠ []) (begin ending : List Char) :
    LineLocal (surroundNext openDelim close begin ending) := fun a b => by
  simp only [surroundNext, surroundCaptures_append_newline hon ho hcn hc]
  rcases surroundCaptures openDelim close a with _ | r
  · rcases surroundCaptures openDelim close b with _ | r <;> simp
  · simp

/-- **A quote pass works line by line.** -/
theorem regexSurround_replace_lines {b e : Char} (hon : '\n' ∉ openDelim) (ho : openDelim ≠ [])
    (hcn : '\n' ∉ close) (hc : close ≠ []) (hw : ∀ x ∈ [b, e], x ∉ openDelim) (x y : List Char) :
    (Replacer.regexSurround openDelim close [b] [e]).replace (x ++ '\n' :: y) =
      (Replacer.regexSurround openDelim close [b] [e]).replace x ++
        '\n' :: (Replacer.regexSurround openDelim close [b] [e]).replace y := by
  have hs (t : List Char) : surroundNext openDelim close [b] [e]
      (iterate (surroundNext openDelim close [b] [e]) (t.length + 1) t) = none := by
    have h : ¬ HasPair openDelim close (surroundLoop openDelim close [b] [e] (t.length + 1) t) :=
      regexSurround_settled_replace ho hw t
    rw [← surroundLoop_eq_iterate, surroundNext, (surroundCaptures_eq_none ho _).2 h]
    rfl
  simp only [Replacer.replace, surroundLoop_eq_iterate]
  rw [show (x ++ '\n' :: y).length + 1 = (x.length + 1) + (y.length + 1) by simp; omega]
  exact iterate_append_newline (surroundNext_lineLocal hon ho hcn hc _ _) _ x (hs x) _ y (hs y)

/-! ## The ellipsis pass -/

theorem trailOk_append_newline (x y : List Char) : trailOk (x ++ '\n' :: y) = trailOk x := by
  cases x <;> rfl

theorem and_trailOk_append_newline {l : List Char} (hl : '\n' ∉ l) (hne : l ≠ []) (n : Nat)
    (hn : l.length = n) (x y : List Char) :
    (l.isPrefixOf (x ++ '\n' :: y) && trailOk ((x ++ '\n' :: y).drop n)) =
      (l.isPrefixOf x && trailOk (x.drop n)) := by
  rw [isPrefixOf_append_newline hl hne]
  cases h : l.isPrefixOf x
  · rfl
  · rw [List.drop_append_of_le_length (hn ▸ (List.isPrefixOf_iff_prefix.1 h).length_le),
      trailOk_append_newline]

/-- A `repl` group with what follows it is read the same whatever follows a newline. -/
theorem replLen_append_newline (x y : List Char) : replLen (x ++ '\n' :: y) = replLen x := by
  have h3 := and_trailOk_append_newline (by decide : '\n' ∉ ['.', '.', '.']) (by decide)
    3 rfl x y
  have h5 := and_trailOk_append_newline (by decide : '\n' ∉ ['.', ' ', '.', ' ', '.']) (by decide)
    5 rfl x y
  unfold replLen
  rw [h3, h5]

theorem ellipsisHead_append_newline (anchored : Bool) {x : List Char} (hx : x ≠ [])
    (y : List Char) :
    ellipsisHead anchored (x ++ '\n' :: y) = ellipsisHead anchored x := by
  obtain ⟨c, x, rfl⟩ := List.exists_cons_of_ne_nil hx
  have h := replLen_append_newline (c :: x) y
  rw [List.cons_append] at h ⊢
  simp only [ellipsisHead, h, replLen_append_newline]

/-- `^` is tried first: at the start of the text a match is an anchored group, or else the match
that starts at the first character. -/
theorem ellipsisHead_true (s : List Char) :
    ellipsisHead true s = ((replLen s).map fun n => (0, n)).or (ellipsisHead false s) := by
  unfold ellipsisHead
  cases replLen s <;> rfl

theorem ellipsisHead_newline (anchored : Bool) (y : List Char) :
    ellipsisHead anchored ('\n' :: y) = (replLen y).map fun n => (1, 1 + n) := by
  have h : replLen ('\n' :: y) = none := replLen_append_newline [] y
  cases anchored <;> simp [ellipsisHead, h]

theorem ellipsisSearch_succ (text : List Char) (k s : Nat) :
    ellipsisSearch text (k + 1) s =
      (ellipsisMatchAt text s).or (ellipsisSearch text k (s + 1)) := by
  simp only [ellipsisSearch]
  cases ellipsisMatchAt text s <;> rfl

/-- The search over `j + m` positions is the search over the first `j`, then over the next `m`. -/
theorem ellipsisSearch_add (text : List Char) : ∀ j m s,
    ellipsisSearch text (j + m) s = (ellipsisSearch text j s).or (ellipsisSearch text m (s + j))
  | 0, m, s => by simp [ellipsisSearch]
  | j + 1, m, s => by
    rw [Nat.add_right_comm, ellipsisSearch_succ, ellipsisSearch_add text j m (s + 1),
      ellipsisSearch_succ, Option.or_assoc, show s + (j + 1) = s + 1 + j by omega]

theorem ellipsisCapturesAt_bounds {text : List Char} {offset p q : Nat}
    (h : ellipsisCapturesAt text offset = some (p, q)) : p ≤ q ∧ q ≤ text.length := by
  obtain ⟨s, -, hm, -⟩ := ellipsisCapturesAt_eq_some h
  obtain ⟨repl, hdrop, hrepl, hlen, -⟩ := ellipsisMatchAt_eq_some hm
  have h1 := congrArg List.length hdrop
  simp only [List.length_drop, List.length_append] at h1
  have := hrepl.three_le_length
  omega

section Lines

variable (a b : List Char)

/-- Shift a range of the second line to the text of both. -/
def shiftLine (r : Nat × Nat) : Nat × Nat := (a.length + 1 + r.1, a.length + 1 + r.2)

theorem ellipsisMatchAt_append_newline_of_lt {s : Nat} (hs : s < a.length) :
    ellipsisMatchAt (a ++ '\n' :: b) s = ellipsisMatchAt a s := by
  have hne : a.drop s ≠ [] := by simp [List.drop_eq_nil_iff]; omega
  simp only [ellipsisMatchAt, List.drop_append_of_le_length hs.le,
    ellipsisHead_append_newline _ hne]

theorem ellipsisMatchAt_append_newline_of_pos {t : Nat} (ht : 0 < t) :
    ellipsisMatchAt (a ++ '\n' :: b) (a.length + 1 + t) =
      (ellipsisMatchAt b t).map (shiftLine a) := by
  have hd : (a ++ '\n' :: b).drop (a.length + 1 + t) = b.drop t := by
    rw [show a ++ '\n' :: b = (a ++ ['\n']) ++ b by simp,
      show a.length + 1 + t = (a ++ ['\n']).length + t by simp, List.drop_append]
  have h1 : (a.length + 1 + t == 0) = false := beq_false_of_ne (by omega)
  have h2 : (t == 0) = false := beq_false_of_ne (by omega)
  simp only [ellipsisMatchAt, hd, Option.map_map, shiftLine, h1, h2]
  rcases ellipsisHead false (b.drop t) with _ | r
  · rfl
  · simp only [Option.map_some', Function.comp_apply, shiftLine, Nat.add_assoc]

/-- The match starting at the newline and the one after it are the match at the start of the
second line: the newline stands where `^` would. -/
theorem ellipsisMatchAt_newline :
    (ellipsisMatchAt (a ++ '\n' :: b) a.length).or
        (ellipsisMatchAt (a ++ '\n' :: b) (a.length + 1)) =
      (ellipsisMatchAt b 0).map (shiftLine a) := by
  have hd : (a ++ '\n' :: b).drop (a.length + 1) = b := by
    rw [show a ++ '\n' :: b = (a ++ ['\n']) ++ b by simp,
      show a.length + 1 = (a ++ ['\n']).length by simp, List.drop_left]
  have h1 : (a.length + 1 == 0) = false := beq_false_of_ne (by omega)
  simp only [ellipsisMatchAt, List.drop_left, hd, ellipsisHead_newline, h1, beq_self_eq_true,
    ellipsisHead_true, Option.map_or', Option.map_map, List.drop_zero]
  rcases replLen b with _ | n <;> rcases ellipsisHead false b with _ | r <;>
    simp [shiftLine, Nat.add_assoc]

theorem ellipsisSearch_append_newline_of_le : ∀ j s, s + j ≤ a.length →
    ellipsisSearch (a ++ '\n' :: b) j s = ellipsisSearch a j s
  | 0, _, _ => rfl
  | j + 1, s, h => by
    rw [ellipsisSearch_succ, ellipsisSearch_succ,
      ellipsisMatchAt_append_newline_of_lt a b (by omega : s < a.length),
      ellipsisSearch_append_newline_of_le j (s + 1) (by omega)]

theorem ellipsisSearch_append_newline_of_pos : ∀ k t, 0 < t →
    ellipsisSearch (a ++ '\n' :: b) k (a.length + 1 + t) = (ellipsisSearch b k t).map (shiftLine a)
  | 0, _, _ => rfl
  | k + 1, t, ht => by
    rw [ellipsisSearch_succ, ellipsisSearch_succ, ellipsisMatchAt_append_newline_of_pos a b ht,
      show a.length + 1 + t + 1 = a.length + 1 + (t + 1) by omega,
      ellipsisSearch_append_newline_of_pos k (t + 1) (by omega), Option.map_or']

/-- From the newline on, the search finds what the search of the second line finds. -/
theorem ellipsisSearch_newline (k : Nat) :
    ellipsisSearch (a ++ '\n' :: b) (k + 1 + 1) a.length =
      (ellipsisSearch b (k + 1) 0).map (shiftLine a) := by
  rw [ellipsisSearch_succ (a ++ '\n' :: b) (k + 1), ellipsisSearch_succ (a ++ '\n' :: b) k,
    ← Option.or_assoc, ellipsisMatchAt_newline,
    ellipsisSearch_append_newline_of_pos a b k 1 Nat.one_pos,
    ellipsisSearch_succ b k 0, Nat.zero_add, Option.map_or']

/-- **The leftmost match on two lines** is the leftmost match on the first, or, when the first
has none, the leftmost match on the second. -/
theorem ellipsisCapturesAt_append_newline :
    ellipsisCapturesAt (a ++ '\n' :: b) 0 =
      (ellipsisCapturesAt a 0).or ((ellipsisCapturesAt b 0).map (shiftLine a)) := by
  have ha : ellipsisCapturesAt a 0 = ellipsisSearch a a.length 0 := by
    rw [ellipsisCapturesAt, Nat.sub_zero, ellipsisSearch_add a a.length 1 0,
      ellipsisSearch_succ a 0,
      ellipsisMatchAt_of_length_le (by simp : a.length ≤ 0 + a.length)]
    simp [ellipsisSearch]
  have hl : (a ++ '\n' :: b).length + 1 - 0 = a.length + (b.length + 1 + 1) := by simp; omega
  rw [ha, ellipsisCapturesAt, ellipsisCapturesAt, hl, ellipsisSearch_add _ a.length,
    ellipsisSearch_append_newline_of_le a b a.length 0 (by omega), Nat.zero_add,
    ellipsisSearch_newline, Nat.sub_zero]

theorem replaceRange_append_newline_of_le {p q : Nat} (hpq : p ≤ q) (hq : q ≤ a.length)
    (replacement : List Char) :
    replaceRange (a ++ '\n' :: b) p q replacement =
      replaceRange a p q replacement ++ '\n' :: b := by
  simp [replaceRange, List.take_append_of_le_length (hpq.trans hq),
    List.drop_append_of_le_length hq]

theorem replaceRange_shiftLine (r : Nat × Nat) (replacement : List Char) :
    replaceRange (a ++ '\n' :: b) (shiftLine a r).1 (shiftLine a r).2 replacement =
      a ++ '\n' :: replaceRange b r.1 r.2 replacement := by
  have h : a ++ '\n' :: b = (a ++ ['\n']) ++ b := by simp
  have hl : a.length + 1 = (a ++ ['\n']).length := by simp
  simp only [replaceRange, shiftLine, h, hl, List.take_append, List.drop_append]
  simp

end Lines

/-- One iteration of the loop that rescans from the start. -/
def ellipsisNext (replacement text : List Char) : Option (List Char) :=
  (ellipsisCapturesAt text 0).map fun r => replaceRange text r.1 r.2 replacement

theorem rescanLoop_eq_iterate (replacement : List Char) :
    ∀ fuel text, rescanLoop replacement fuel text = iterate (ellipsisNext replacement) fuel text
  | 0, _ => rfl
  | fuel + 1, text => by
    simp only [rescanLoop, iterate, ellipsisNext]
    rcases ellipsisCapturesAt text 0 with _ | ⟨p, q⟩
    · rfl
    · exact rescanLoop_eq_iterate replacement fuel _

theorem ellipsisNext_lineLocal (replacement : List Char) :
    LineLocal (ellipsisNext replacement) := fun a b => by
  simp only [ellipsisNext, ellipsisCapturesAt_append_newline]
  rcases ha : ellipsisCapturesAt a 0 with _ | ⟨p, q⟩
  · rcases ellipsisCapturesAt b 0 with _ | r
    · rfl
    · simp [replaceRange_shiftLine]
  · obtain ⟨hpq, hq⟩ := ellipsisCapturesAt_bounds ha
    simp [replaceRange_append_newline_of_le a b hpq hq]

/-- **The ellipsis pass works line by line.** -/
theorem horizontalEllipsis_replace_lines (x y : List Char) :
    HORIZONTAL_ELLIPSIS.replace (x ++ '\n' :: y) =
      HORIZONTAL_ELLIPSIS.replace x ++ '\n' :: HORIZONTAL_ELLIPSIS.replace y := by
  have hr (t : List Char) :
      HORIZONTAL_ELLIPSIS.replace t = iterate (ellipsisNext ['…']) (t.length + 1) t := by
    rw [← rescanLoop_eq_iterate, ← replaceLoop_eq_rescanLoop _ _ 0 (noMatchBefore_zero t)]
    rfl
  have hs (t : List Char) :
      ellipsisNext ['…'] (iterate (ellipsisNext ['…']) (t.length + 1) t) = none := by
    rw [← hr, ellipsisNext, ellipsisCapturesAt_of_noEllipsis (horizontalEllipsis_settled_replace t)]
    rfl
  rw [hr, hr x, hr y, show (x ++ '\n' :: y).length + 1 = (x.length + 1) + (y.length + 1) by
    simp; omega]
  exact iterate_append_newline (ellipsisNext_lineLocal _) _ x (hs x) _ y (hs y)

/-! ## `substitute` -/

/-- **`substitute` works line by line**: on two lines it is `substitute` of each. -/
theorem substitute_lines (a b : String) :
    substitute (a ++ "\n" ++ b) = substitute a ++ "\n" ++ substitute b := by
  have hdata : (a ++ "\n" ++ b).data = a.data ++ '\n' :: b.data := by simp
  apply String.ext
  -- the side conditions of each quote pass are facts about its delimiters
  simp (disch := decide) only [substitute, DOUBLE_QUOTES, LOW_DOUBLE_QUOTES, SINGLE_QUOTES,
    String.data_append, hdata, regexSurround_replace_lines, horizontalEllipsis_replace_lines]
  simp

example : substitute "``a''...\n. . .b" = "“a”…\n…b" := by decide

end Ftml
