import Wikijump.Ftml.Surround

/-!
# The ellipsis pass

What the `RegexReplace` loop of `HORIZONTAL_ELLIPSIS` does.  It resumes each search right after
the `…` it inserted, not at the start of the text; it still leaves no match anywhere.

* `replLen_eq_some_iff` — the `repl` group with what follows it, as a decomposition of the text.
* `ellipsisCapturesAt_eq_some`, `ellipsisCapturesAt_eq_none` — `captures_at` returns the leftmost
  match from the offset, and finds one when there is one.
* `NoMatchBefore.replace` — the loop's invariant, no match starts before the offset, survives a
  replacement: the character after the replaced group is not `.`, and the one before it is not
  either (or the group starts the text), so the `…` joins no dots around it into a match.
* `replaceLoop_spec` — the loop stops before its bound on a text without a match, and keeps every
  property that one replacement keeps.
-/

set_option autoImplicit false

namespace Ftml

/-- The text of a `repl` group: `...` or `. . .`. -/
def IsRepl (repl : List Char) : Prop :=
  repl = ['.', '.', '.'] ∨ repl = ['.', ' ', '.', ' ', '.']

/-- No match of `HORIZONTAL_ELLIPSIS` starts before `offset`. -/
def NoMatchBefore (text : List Char) (offset : Nat) : Prop :=
  ∀ start < offset, ellipsisMatchAt text start = none

/-- `text` has no match of `HORIZONTAL_ELLIPSIS`. -/
def NoEllipsis (text : List Char) : Prop := ∀ start, ellipsisMatchAt text start = none

/-- One iteration of the loop: a `repl` group replaced by `…`. -/
def EllipsisStep (text text' : List Char) : Prop :=
  ∃ before repl after, text = before ++ repl ++ after ∧ IsRepl repl ∧
    text' = before ++ '…' :: after

/-- One iteration of the loop as the regex makes it: a `repl` group that neither follows nor
precedes a `.`, replaced by `…`. -/
def IsolatedEllipsisStep (text text' : List Char) : Prop :=
  ∃ before repl after, text = before ++ repl ++ after ∧ IsRepl repl ∧
    before.getLast? ≠ some '.' ∧ after.head? ≠ some '.' ∧ text' = before ++ '…' :: after

theorem noMatchBefore_zero (text : List Char) : NoMatchBefore text 0 :=
  fun _ h => absurd h (Nat.not_lt_zero _)

theorem IsolatedEllipsisStep.ellipsisStep {text text' : List Char}
    (h : IsolatedEllipsisStep text text') : EllipsisStep text text' :=
  let ⟨before, repl, after, he, hr, _, _, he'⟩ := h
  ⟨before, repl, after, he, hr, he'⟩

/-! ## The `repl` group -/

theorem IsRepl.chars {repl : List Char} (h : IsRepl repl) : ∀ c ∈ repl, c = '.' ∨ c = ' ' := by
  rcases h with rfl | rfl <;> simp

theorem IsRepl.getLast {repl : List Char} (h : IsRepl repl) : repl.getLast? = some '.' := by
  rcases h with rfl | rfl <;> rfl

theorem IsRepl.three_le_length {repl : List Char} (h : IsRepl repl) : 3 ≤ repl.length := by
  rcases h with rfl | rfl <;> simp

theorem IsRepl.count_dot {repl : List Char} (h : IsRepl repl) : repl.count '.' = 3 := by
  rcases h with rfl | rfl <;> rfl

/-- **A replacement removes three `.`.** -/
theorem EllipsisStep.count_dot {text text' : List Char} (h : EllipsisStep text text') :
    text'.count '.' + 3 = text.count '.' := by
  obtain ⟨before, repl, after, rfl, hr, rfl⟩ := h
  simp [List.count_cons, hr.count_dot]
  omega

theorem trailOk_cons {c : Char} {s : List Char} : trailOk (c :: s) = true ↔ c ≠ '.' := by
  simp [trailOk]

/-- **`replLen` reads the `repl` group and checks what follows it.** -/
theorem replLen_eq_some_iff {s : List Char} {n : Nat} :
    replLen s = some n ↔
      ∃ repl rest, s = repl ++ rest ∧ IsRepl repl ∧ repl.length = n ∧ trailOk rest = true := by
  constructor
  · intro h
    unfold replLen at h
    split_ifs at h with h3 h5 <;> cases h
    · simp only [Bool.and_eq_true] at h3
      obtain ⟨rest, rfl⟩ := List.isPrefixOf_iff_prefix.1 h3.1
      exact ⟨_, rest, rfl, .inl rfl, rfl, by simpa using h3.2⟩
    · simp only [Bool.and_eq_true] at h5
      obtain ⟨rest, rfl⟩ := List.isPrefixOf_iff_prefix.1 h5.1
      exact ⟨_, rest, rfl, .inr rfl, rfl, by simpa using h5.2⟩
  · rintro ⟨repl, rest, rfl, rfl | rfl, rfl, ht⟩
    · simp [replLen, ht]
    · simp [replLen, ht, List.isPrefixOf]

theorem replLen_cons_of_ne {c : Char} (hc : c ≠ '.') (s : List Char) : replLen (c :: s) = none := by
  rcases h : replLen (c :: s) with _ | n
  · rfl
  · obtain ⟨repl, rest, he, hr, -, -⟩ := replLen_eq_some_iff.1 h
    rcases hr with rfl | rfl <;> simp at he <;> exact absurd he.1 hc

/-- A group that ends before the end of `D` is read the same whatever follows `D`. -/
theorem replLen_append_of_lt {D Y : List Char} {n : Nat} (h : replLen (D ++ Y) = some n)
    (hn : n < D.length) (Y' : List Char) : replLen (D ++ Y') = some n := by
  obtain ⟨repl, rest, he, hr, rfl, ht⟩ := replLen_eq_some_iff.1 h
  rcases List.append_eq_append_iff.1 he with ⟨a', rfl, -⟩ | ⟨c', rfl, rfl⟩
  · simp only [List.length_append] at hn; omega
  · rcases c' with _ | ⟨c, c'⟩
    · simp only [List.append_nil] at hn; omega
    · exact replLen_eq_some_iff.2 ⟨repl, c :: c' ++ Y', by simp, hr, rfl, by simpa using ht⟩

/-- **A group read across a character that is neither `.` nor a space** ends before it: either
before the end of `D`, or at the end of `D`, which then ends with `.`. -/
theorem replLen_append_cons {D T : List Char} {z : Char} (hz : z ≠ '.') (hz' : z ≠ ' ') {n : Nat}
    (h : replLen (D ++ z :: T) = some n) :
    n < D.length ∨ D.getLast? = some '.' := by
  obtain ⟨repl, rest, he, hr, rfl, -⟩ := replLen_eq_some_iff.1 h
  rcases List.append_eq_append_iff.1 he with ⟨a', rfl, hzT⟩ | ⟨c', rfl, -⟩
  · rcases a' with _ | ⟨a, a'⟩
    · exact .inr (by simpa using hr.getLast)
    · simp only [List.cons_append, List.cons.injEq] at hzT
      rcases hr.chars z (by simp [hzT.1]) with h | h <;> contradiction
  · rcases c' with _ | ⟨c, c'⟩
    · exact .inr (by simpa using hr.getLast)
    · exact .inl (by simp)

/-! ## A match at one position -/

theorem ellipsisHead_eq_some {anchored : Bool} {s : List Char} {r : Nat × Nat}
    (h : ellipsisHead anchored s = some r) :
    (anchored = true ∧ r.1 = 0 ∧ replLen s = some r.2) ∨
      ∃ c rest, s = c :: rest ∧ c ≠ '.' ∧ r.1 = 1 ∧ replLen rest = some (r.2 - 1) := by
  unfold ellipsisHead at h
  rcases ha : (if anchored then replLen s else none) with _ | n <;> rw [ha] at h
  · rcases s with _ | ⟨c, rest⟩
    · cases h
    · simp only at h
      split_ifs at h with hc
      obtain ⟨n, hn, rfl⟩ := Option.map_eq_some'.1 h
      exact .inr ⟨c, rest, rfl, hc, rfl, by simpa using hn⟩
  · cases h
    split_ifs at ha with hanc
    exact .inl ⟨hanc, rfl, ha⟩

theorem ellipsisHead_ne_none_of_replLen {anchored : Bool} {c : Char} {rest : List Char}
    (hc : c ≠ '.') (h : replLen rest ≠ none) : ellipsisHead anchored (c :: rest) ≠ none := by
  unfold ellipsisHead
  split
  · simp
  · obtain ⟨n, hn⟩ := Option.ne_none_iff_exists'.1 h
    simp [hc, hn]

/-- No match starts at a character other than `.` followed by a text that a `repl` group's tail
would accept. -/
theorem ellipsisHead_cons_of_trailOk (anchored : Bool) {z : Char} (hz : z ≠ '.') {T : List Char}
    (hT : trailOk T = true) : ellipsisHead anchored (z :: T) = none := by
  have hT' : replLen T = none := by
    cases T with
    | nil => rfl
    | cons c T => exact replLen_cons_of_ne (by simpa [trailOk_cons] using hT) T
  simp [ellipsisHead, replLen_cons_of_ne hz, hz, hT']

/-- **A match across a character that is neither `.` nor a space** either lies at least four
characters before it, and is then a match whatever follows `D`, or ends right before it, `D` then
ending with `.`. -/
theorem ellipsisHead_append_cons {anchored : Bool} {D T : List Char} (hD : D ≠ []) {z : Char}
    (hz : z ≠ '.') (hz' : z ≠ ' ') (h : ellipsisHead anchored (D ++ z :: T) ≠ none) :
    (4 ≤ D.length ∧ ∀ Y, ellipsisHead anchored (D ++ Y) ≠ none) ∨ D.getLast? = some '.' := by
  obtain ⟨r, hr⟩ := Option.ne_none_iff_exists'.1 h
  rcases ellipsisHead_eq_some hr with ⟨ha, -, hn⟩ | ⟨c, rest, he, hc, -, hn⟩
  · rcases replLen_append_cons hz hz' hn with hlt | hl
    · obtain ⟨repl, -, -, hrepl, hlen, -⟩ := replLen_eq_some_iff.1 hn
      refine .inl ⟨by have := hrepl.three_le_length; omega, fun Y => ?_⟩
      unfold ellipsisHead
      simp [ha, replLen_append_of_lt hn hlt Y]
    · exact .inr hl
  · obtain ⟨d, D', rfl⟩ := List.exists_cons_of_ne_nil hD
    simp only [List.cons_append, List.cons.injEq] at he
    obtain ⟨rfl, rfl⟩ := he
    rcases replLen_append_cons hz hz' hn with hlt | hl
    · obtain ⟨repl, -, -, hrepl, hlen, -⟩ := replLen_eq_some_iff.1 hn
      refine .inl ⟨by simp; have := hrepl.three_le_length; omega, fun Y => ?_⟩
      exact ellipsisHead_ne_none_of_replLen hc (by simp [replLen_append_of_lt hn hlt Y])
    · have hD' : D' ≠ [] := by rintro rfl; simp at hl
      exact .inr ((List.getLast?_append_of_ne_nil [d] hD').trans hl)

/-! ## The search -/

section Search

variable {text : List Char}

theorem ellipsisMatchAt_of_length_le {start : Nat} (h : text.length ≤ start) :
    ellipsisMatchAt text start = none := by
  simp [ellipsisMatchAt, List.drop_eq_nil_of_le h, ellipsisHead, replLen]

theorem ellipsisSearch_eq_some : ∀ {k start : Nat} {r : Nat × Nat},
    ellipsisSearch text k start = some r →
      ∃ s, start ≤ s ∧ ellipsisMatchAt text s = some r ∧
        ∀ s', start ≤ s' → s' < s → ellipsisMatchAt text s' = none
  | 0, _, _, h => by simp [ellipsisSearch] at h
  | k + 1, start, r, h => by
    simp only [ellipsisSearch] at h
    split at h
    · rename_i r' hr
      cases h
      exact ⟨start, le_refl _, hr, fun s' h1 h2 => absurd h2 (by omega)⟩
    · rename_i hr
      obtain ⟨s, hs, hm, hbefore⟩ := ellipsisSearch_eq_some h
      refine ⟨s, by omega, hm, fun s' h1 h2 => ?_⟩
      rcases Nat.eq_or_lt_of_le h1 with rfl | h1
      · exact hr
      · exact hbefore s' h1 h2

theorem ellipsisSearch_eq_none : ∀ {k start : Nat}, ellipsisSearch text k start = none →
    ∀ s, start ≤ s → s < start + k → ellipsisMatchAt text s = none
  | 0, _, _, _, h1, h2 => absurd h2 (by omega)
  | k + 1, start, h, s, h1, h2 => by
    simp only [ellipsisSearch] at h
    split at h
    · cases h
    · rename_i hr
      rcases Nat.eq_or_lt_of_le h1 with rfl | h1
      · exact hr
      · exact ellipsisSearch_eq_none h s h1 (by omega)

/-- **`captures_at` returns the leftmost match from the offset.** -/
theorem ellipsisCapturesAt_eq_some {offset : Nat} {r : Nat × Nat}
    (h : ellipsisCapturesAt text offset = some r) :
    ∃ s, offset ≤ s ∧ ellipsisMatchAt text s = some r ∧
      ∀ s', offset ≤ s' → s' < s → ellipsisMatchAt text s' = none :=
  ellipsisSearch_eq_some h

/-- **`captures_at` finds a match from the offset when there is one.** -/
theorem ellipsisCapturesAt_eq_none {offset : Nat} (h : ellipsisCapturesAt text offset = none) :
    ∀ s, offset ≤ s → ellipsisMatchAt text s = none := fun s hs => by
  by_cases hl : text.length ≤ s
  · exact ellipsisMatchAt_of_length_le hl
  · exact ellipsisSearch_eq_none h s hs (by omega)

end Search

/-! ## The loop -/

/-- A match read back from its range: the `repl` group and the text after it, and the character
before the group, which is not `.`, unless the group starts the text. -/
theorem ellipsisMatchAt_eq_some {text : List Char} {s p q : Nat}
    (h : ellipsisMatchAt text s = some (p, q)) :
    ∃ repl, text.drop p = repl ++ text.drop q ∧ IsRepl repl ∧ p + repl.length = q ∧
      trailOk (text.drop q) = true ∧
      ((s = 0 ∧ p = 0) ∨ (p = s + 1 ∧ ∃ x, text.drop s = x :: text.drop p ∧ x ≠ '.')) := by
  obtain ⟨r, hr, he⟩ := Option.map_eq_some'.1 h
  simp only [Prod.mk.injEq] at he
  obtain ⟨rfl, rfl⟩ := he
  rcases ellipsisHead_eq_some hr with ⟨ha, h1, hn⟩ | ⟨c, rest, hd, hc, h1, hn⟩
  · have hs : s = 0 := by simpa using ha
    subst hs
    obtain ⟨repl, rest, he, hrepl, hlen, ht⟩ := replLen_eq_some_iff.1 hn
    simp only [List.drop_zero] at he
    have hq : text.drop (0 + r.2) = rest := by rw [he, ← hlen]; simp
    exact ⟨repl, by rw [h1, hq]; simpa using he, hrepl, by simp [h1, hlen], hq ▸ ht,
      .inl ⟨rfl, by simp [h1]⟩⟩
  · obtain ⟨repl, rest', he, hrepl, hlen, ht⟩ := replLen_eq_some_iff.1 hn
    have hp : text.drop (s + r.1) = rest := by
      rw [h1, ← List.drop_drop, hd]; rfl
    have hq : text.drop (s + r.2) = rest' := by
      rw [show s + r.2 = s + r.1 + repl.length by
        have := hrepl.three_le_length; omega, ← List.drop_drop, hp, he]
      simp
    exact ⟨repl, by rw [hp, hq, he], hrepl, by have := hrepl.three_le_length; omega,
      hq ▸ ht, .inr ⟨h1 ▸ rfl, c, by rw [hd, hp], hc⟩⟩

/-- **The loop's invariant survives a replacement**: when no match starts before the offset,
none starts before the position after the inserted `…`. -/
theorem NoMatchBefore.replace {text : List Char} {offset p q : Nat}
    (h : NoMatchBefore text offset) (hc : ellipsisCapturesAt text offset = some (p, q)) :
    NoMatchBefore (replaceRange text p q ['…']) (p + 1) := by
  obtain ⟨s₀, hs₀, hm, hleft⟩ := ellipsisCapturesAt_eq_some hc
  have hbefore : ∀ s < s₀, ellipsisMatchAt text s = none := fun s hs =>
    if hso : s < offset then h s hso else hleft s (by omega) hs
  obtain ⟨repl, hdrop, hrepl, hlen, htrail, hpos⟩ := ellipsisMatchAt_eq_some hm
  have hp : p < text.length := by
    have := congrArg List.length hdrop
    simp only [List.length_drop, List.length_append] at this
    have := hrepl.three_le_length; omega
  have htl : (text.take p).length = p := by simp; omega
  have htext : text = text.take p ++ (repl ++ text.drop q) := by
    rw [← hdrop, List.take_append_drop]
  intro s hs
  rw [replaceRange, List.append_assoc, List.singleton_append]
  rcases Nat.lt_succ_iff_lt_or_eq.1 hs with hs | rfl
  · -- a start before the group: its match would have been found, or the group follows a `.`
    have hDlen : ((text.take p).drop s).length = p - s := by simp only [List.length_drop, htl]
    have hD : (text.take p).drop s ≠ [] := fun he => by
      rw [he] at hDlen; simp at hDlen; omega
    simp only [ellipsisMatchAt, List.drop_append_of_le_length (by omega : s ≤ (text.take p).length),
      Option.map_eq_none']
    by_contra hne
    rcases ellipsisHead_append_cons hD (by decide) (by decide) hne with ⟨h4, hY⟩ | hl
    · have hs' : s < s₀ := by rcases hpos with ⟨-, rfl⟩ | ⟨rfl, -⟩ <;> omega
      have h0 := hbefore s hs'
      rw [ellipsisMatchAt, htext, List.drop_append_of_le_length (by omega),
        Option.map_eq_none'] at h0
      exact hY _ h0
    · have hl' : (text.take p).getLast? = some '.' := by
        rw [← List.take_append_drop s (text.take p), List.getLast?_append_of_ne_nil _ hD]
        exact hl
      rcases hpos with ⟨-, rfl⟩ | ⟨rfl, x, hx, hxd⟩
      · omega
      · rw [List.take_add, hx, List.getLast?_append_of_ne_nil _ (by simp)] at hl'
        exact hxd (by simpa using hl')
  · -- the start of the `…`: no `.` follows it
    simp only [ellipsisMatchAt, List.drop_left' htl,
      ellipsisHead_cons_of_trailOk _ (by decide : '…' ≠ '.') htrail, Option.map_none']

theorem ellipsisCapturesAt_of_noEllipsis {text : List Char} (h : NoEllipsis text) (offset : Nat) :
    ellipsisCapturesAt text offset = none := by
  rcases hc : ellipsisCapturesAt text offset with _ | r
  · rfl
  · obtain ⟨s, -, hm, -⟩ := ellipsisCapturesAt_eq_some hc
    rw [h s] at hm
    cases hm

/-- The loop on a text without a match returns it. -/
theorem replaceLoop_of_noEllipsis {text : List Char} (h : NoEllipsis text)
    (replacement : List Char) : ∀ fuel offset, replaceLoop replacement fuel text offset = text
  | 0, _ => rfl
  | _ + 1, offset => by simp [replaceLoop, ellipsisCapturesAt_of_noEllipsis h offset]

/-- A text with fewer than three `.` has no match. -/
theorem noEllipsis_of_count_lt {text : List Char} (h : text.count '.' < 3) : NoEllipsis text := by
  intro s
  rcases hm : ellipsisMatchAt text s with _ | ⟨p, q⟩
  · rfl
  obtain ⟨repl, hdrop, hrepl, -⟩ := ellipsisMatchAt_eq_some hm
  have hle := (List.drop_sublist p text).count_le '.'
  rw [hdrop, List.count_append, hrepl.count_dot] at hle
  omega

/-- **The match `captures_at` returns is a group that neither follows nor precedes a `.`.** -/
theorem isolatedEllipsisStep_of_capturesAt {text : List Char} {offset p q : Nat}
    (hc : ellipsisCapturesAt text offset = some (p, q)) :
    IsolatedEllipsisStep text (replaceRange text p q ['…']) := by
  obtain ⟨s₀, -, hm, -⟩ := ellipsisCapturesAt_eq_some hc
  obtain ⟨repl, hdrop, hrepl, -, htrail, hpos⟩ := ellipsisMatchAt_eq_some hm
  refine ⟨text.take p, repl, text.drop q, by rw [List.append_assoc, ← hdrop, List.take_append_drop],
    hrepl, ?_, by simpa [trailOk] using htrail, by simp [replaceRange]⟩
  rcases hpos with ⟨-, rfl⟩ | ⟨rfl, x, hx, hxd⟩
  · simp
  · rw [List.take_add, hx]
    simpa using hxd

/-- **The loop stops on a text without a match within `fuel` replacements, and keeps what every
replacement keeps**, when the text has fewer than `3 * (fuel + 1)` dots: each replacement removes
three. -/
theorem replaceLoop_bound (P : List Char → Prop)
    (hstep : ∀ t t', P t → IsolatedEllipsisStep t t' → P t') :
    ∀ (fuel : Nat) (text : List Char) (offset : Nat), text.count '.' < 3 * (fuel + 1) →
      NoMatchBefore text offset → P text →
      NoEllipsis (replaceLoop ['…'] fuel text offset) ∧ P (replaceLoop ['…'] fuel text offset)
  | 0, text, _, hf, _, hp => ⟨noEllipsis_of_count_lt (by omega : text.count '.' < 3), hp⟩
  | fuel + 1, text, offset, hf, hinv, hp => by
    simp only [replaceLoop]
    rcases hc : ellipsisCapturesAt text offset with _ | ⟨p, q⟩
    · exact ⟨fun s => if hs : s < offset then hinv s hs else
        ellipsisCapturesAt_eq_none hc s (by omega), hp⟩
    have hs := isolatedEllipsisStep_of_capturesAt hc
    have hcount := hs.ellipsisStep.count_dot
    exact replaceLoop_bound P hstep fuel _ (p + 1) (by omega) (hinv.replace hc) (hstep _ _ hp hs)

/-- **The loop stops on a text without a match, and keeps what every replacement keeps**, given
more iterations than characters. -/
theorem replaceLoop_spec (P : List Char → Prop) (hstep : ∀ t t', P t → EllipsisStep t t' → P t')
    (fuel : Nat) (text : List Char) (offset : Nat) (hf : text.length < fuel)
    (hinv : NoMatchBefore text offset) (hp : P text) :
    NoEllipsis (replaceLoop ['…'] fuel text offset) ∧ P (replaceLoop ['…'] fuel text offset) :=
  replaceLoop_bound P (fun t t' ht hs => hstep t t' ht hs.ellipsisStep) fuel text offset
    (by have := List.count_le_length '.' text; omega) hinv hp

/-- **More iterations change nothing once the loop has no match left.** -/
theorem replaceLoop_eq_of_settled (replacement : List Char) : ∀ {n m : Nat} {text : List Char}
    {offset : Nat}, n ≤ m → NoEllipsis (replaceLoop replacement n text offset) →
      replaceLoop replacement m text offset = replaceLoop replacement n text offset
  | 0, m, _, offset, _, h => replaceLoop_of_noEllipsis h replacement m offset
  | _ + 1, 0, _, _, hnm, _ => absurd hnm (by omega)
  | n + 1, m + 1, text, offset, hnm, h => by
    simp only [replaceLoop] at h ⊢
    rcases hc : ellipsisCapturesAt text offset with _ | ⟨p, q⟩
    · rfl
    · rw [hc] at h
      exact replaceLoop_eq_of_settled replacement (Nat.le_of_succ_le_succ hnm) h

/-- **A replacement by `…` creates no match of a surround regex whose delimiters avoid `…`.** -/
theorem not_hasPair_ellipsisStep {openDelim close : List Char} (hzo : '…' ∉ openDelim)
    (hzc : '…' ∉ close) {text text' : List Char} (h : ¬ HasPair openDelim close text)
    (hs : EllipsisStep text text') :
    ¬ HasPair openDelim close text' := by
  obtain ⟨A, repl, B, rfl, hrepl, rfl⟩ := hs
  refine fun hp => h (hasPair_of_replace hzo hzc (fun hn => ?_) hp)
  rcases hrepl.chars _ hn with h | h <;> exact absurd h (by decide)

/-! ## The loop against a rescan from the start -/

/-- The plain loop the offset loop is compared with (not in the source): after every replacement
it searches again from position 0. -/
def rescanLoop (replacement : List Char) : Nat → List Char → List Char
  | 0, text => text
  | fuel + 1, text =>
    match ellipsisCapturesAt text 0 with
    | none => text
    | some (start, stop) => rescanLoop replacement fuel (replaceRange text start stop replacement)

/-- **With no match before the offset, searching from the offset finds the match a search from
the start finds**: both return the leftmost match of the text. -/
theorem NoMatchBefore.capturesAt_eq {text : List Char} {offset : Nat}
    (h : NoMatchBefore text offset) :
    ellipsisCapturesAt text offset = ellipsisCapturesAt text 0 := by
  rcases h0 : ellipsisCapturesAt text 0 with _ | r
  · rcases ho : ellipsisCapturesAt text offset with _ | r'
    · rfl
    · obtain ⟨s, -, hm, -⟩ := ellipsisCapturesAt_eq_some ho
      rw [ellipsisCapturesAt_eq_none h0 s (Nat.zero_le _)] at hm
      cases hm
  · obtain ⟨s₀, -, hm₀, hleft₀⟩ := ellipsisCapturesAt_eq_some h0
    have hs₀ : offset ≤ s₀ := Nat.le_of_not_lt fun hlt => by rw [h s₀ hlt] at hm₀; cases hm₀
    rcases ho : ellipsisCapturesAt text offset with _ | r'
    · rw [ellipsisCapturesAt_eq_none ho s₀ hs₀] at hm₀
      cases hm₀
    · obtain ⟨s₁, hs₁, hm₁, hleft₁⟩ := ellipsisCapturesAt_eq_some ho
      have h01 : s₀ ≤ s₁ := Nat.le_of_not_lt fun hlt => by
        rw [hleft₀ s₁ (Nat.zero_le _) hlt] at hm₁; cases hm₁
      have h10 : s₁ ≤ s₀ := Nat.le_of_not_lt fun hlt => by
        rw [hleft₁ s₀ hs₀ hlt] at hm₀; cases hm₀
      rw [Nat.le_antisymm h10 h01, hm₀] at hm₁
      exact hm₁.symm

/-- The offset loop makes the replacements the rescanning loop makes, iteration by iteration. -/
theorem replaceLoop_eq_rescanLoop : ∀ (fuel : Nat) (text : List Char) (offset : Nat),
    NoMatchBefore text offset → replaceLoop ['…'] fuel text offset = rescanLoop ['…'] fuel text
  | 0, _, _, _ => rfl
  | fuel + 1, text, offset, h => by
    simp only [replaceLoop, rescanLoop, h.capturesAt_eq]
    rcases hc : ellipsisCapturesAt text 0 with _ | ⟨p, q⟩
    · rfl
    · exact replaceLoop_eq_rescanLoop fuel _ (p + 1) (h.replace (h.capturesAt_eq.trans hc))

/-- **The loop that resumes at the offset is the loop that rescans from the start**: for every
bound on the iterations they return the same text, and the pass's result has no match. -/
theorem offset_loop_eq_rescan (text : List Char) :
    (∀ fuel, replaceLoop ['…'] fuel text 0 = rescanLoop ['…'] fuel text) ∧
      NoEllipsis (HORIZONTAL_ELLIPSIS.replace text) :=
  ⟨fun fuel => replaceLoop_eq_rescanLoop fuel text 0 (noMatchBefore_zero text),
    (replaceLoop_spec (fun _ => True) (fun _ _ _ _ => trivial) _ text 0 (Nat.lt_succ_self _)
      (noMatchBefore_zero text) trivial).1⟩

example : rescanLoop ['…'] 5 "a... . . .".data = "a… …".data := by decide

end Ftml
