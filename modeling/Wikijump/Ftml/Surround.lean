import Wikijump.Ftml.Typography

/-!
# The surround passes

What the loop of a `RegexSurround` replacer does, for a regex `open(.*?)close` with literal,
non-empty delimiters.

* `HasPair open close text` — `text` has a match: an `open`, then a `close` with no newline
  between them; `surroundCaptures_eq_none` — the search finds nothing exactly when there is none.
* `hasPair_of_replace` — replacing a piece without a newline by one character that is neither a
  newline nor in a delimiter creates no match; so a later pass whose delimiters and replacements
  are of that kind creates no match of an earlier one (`not_hasPair_surroundStep`).
* `surroundLoop_spec` — the loop stops before its bound, on a text without a match, and keeps
  every property that one replacement keeps.
-/

set_option autoImplicit false

namespace Ftml

/-- `text` has a match of `open(.*?)close`. -/
def HasPair (openDelim close text : List Char) : Prop :=
  ∃ before content after,
    text = before ++ openDelim ++ content ++ close ++ after ∧ '\n' ∉ content

/-- One iteration of the loop of `RegexSurround`: a match replaced by `begin`, its content and
`end`. -/
def SurroundStep (openDelim close begin ending text text' : List Char) : Prop :=
  ∃ before content after,
    text = before ++ openDelim ++ content ++ close ++ after ∧ '\n' ∉ content ∧
      text' = before ++ begin ++ content ++ ending ++ after

section Search

variable {openDelim close : List Char}

theorem isPrefixOf_append_self (l rest : List Char) : l.isPrefixOf (l ++ rest) = true :=
  List.isPrefixOf_iff_prefix.2 (List.prefix_append _ _)

theorem lazyUntil_eq_some : ∀ {s content after : List Char},
    lazyUntil close s = some (content, after) → s = content ++ close ++ after ∧ '\n' ∉ content
  | [], content, after, h => by
    simp only [lazyUntil] at h
    split_ifs at h with hp
    cases h
    simp [List.prefix_nil.1 (List.isPrefixOf_iff_prefix.1 hp)]
  | c :: rest, content, after, h => by
    simp only [lazyUntil] at h
    split_ifs at h with hp hn
    · cases h
      exact ⟨(List.prefix_iff_eq_append.1 (List.isPrefixOf_iff_prefix.1 hp)).symm, by simp⟩
    · obtain ⟨⟨content', after'⟩, hr, he⟩ := Option.map_eq_some'.1 h
      cases he
      obtain ⟨h1, h2⟩ := lazyUntil_eq_some hr
      exact ⟨by rw [h1]; rfl, by simp [Ne.symm hn, h2]⟩

theorem lazyUntil_ne_none : ∀ {content : List Char} (after : List Char), '\n' ∉ content →
    lazyUntil close (content ++ close ++ after) ≠ none
  | [], after, _ => by
    rw [List.nil_append]
    cases h : close ++ after with
    | nil => simp [lazyUntil, ← h, isPrefixOf_append_self]
    | cons c rest => simp [lazyUntil, ← h, isPrefixOf_append_self]
  | x :: content, after, hn => by
    simp only [List.cons_append, lazyUntil]
    split_ifs with hp hx
    · simp
    · exact absurd (hx ▸ List.mem_cons_self _ _) hn
    · simpa using lazyUntil_ne_none after fun h => hn (List.mem_cons_of_mem _ h)

/-- **What the search returns**: the leftmost match, split into the text before it, its content
and the text after it. -/
theorem surroundCaptures_eq_some : ∀ {text before content after : List Char},
    surroundCaptures openDelim close text = some (before, content, after) →
      text = before ++ openDelim ++ content ++ close ++ after ∧ '\n' ∉ content
  | [], _, _, _, h => by simp [surroundCaptures] at h
  | c :: rest, before, content, after, h => by
    simp only [surroundCaptures] at h
    split at h
    · rename_i content' after' hm
      cases h
      split_ifs at hm with hp
      obtain ⟨h1, h2⟩ := lazyUntil_eq_some hm
      refine ⟨?_, h2⟩
      rw [← List.prefix_iff_eq_append.1 (List.isPrefixOf_iff_prefix.1 hp), h1]
      simp
    · obtain ⟨⟨before', content', after'⟩, hr, he⟩ := Option.map_eq_some'.1 h
      cases he
      obtain ⟨h1, h2⟩ := surroundCaptures_eq_some hr
      exact ⟨by rw [h1]; simp, h2⟩

theorem surroundCaptures_ne_none (ho : openDelim ≠ []) : ∀ (before : List Char)
    {content : List Char} (after : List Char), '\n' ∉ content →
    surroundCaptures openDelim close (before ++ openDelim ++ content ++ close ++ after) ≠ none
  | [], content, after, hn => by
    obtain ⟨o, os, rfl⟩ := List.exists_cons_of_ne_nil ho
    have hl : lazyUntil close (content ++ close ++ after) ≠ none := lazyUntil_ne_none after hn
    set rest := content ++ close ++ after with hrest
    rw [show [] ++ (o :: os) ++ content ++ close ++ after = o :: (os ++ rest) by simp [hrest]]
    have hpre : (o :: os).isPrefixOf (o :: (os ++ rest)) = true := isPrefixOf_append_self _ rest
    have hdrop : (o :: (os ++ rest)).drop (o :: os).length = rest := List.drop_left (o :: os) rest
    simp only [surroundCaptures, hpre, if_true, hdrop]
    rcases hl' : lazyUntil close rest with _ | ⟨c', a'⟩
    · exact absurd hl' hl
    · simp
  | x :: before, content, after, hn => by
    simp only [List.cons_append, surroundCaptures]
    split
    · simp
    · simpa [List.append_assoc] using surroundCaptures_ne_none ho before after hn

/-- **The search finds nothing exactly when the text has no match.** -/
theorem surroundCaptures_eq_none (ho : openDelim ≠ []) (text : List Char) :
    surroundCaptures openDelim close text = none ↔ ¬ HasPair openDelim close text := by
  constructor
  · rintro h ⟨before, content, after, rfl, hn⟩
    exact surroundCaptures_ne_none ho before after hn h
  · intro h
    rcases hs : surroundCaptures openDelim close text with _ | ⟨before, content, after⟩
    · rfl
    · exact absurd ⟨before, content, after, surroundCaptures_eq_some hs⟩ h

end Search

/-! ## Matches a replacement creates -/

section Replace

variable {openDelim close : List Char}

/-- A character of a text that a segment avoids stands before the segment or after it. -/
theorem append_cons_eq_split {z : Char} {A B X D Y : List Char} (hz : z ∉ D)
    (h : A ++ z :: B = X ++ D ++ Y) :
    (∃ X', X = A ++ z :: X' ∧ B = X' ++ D ++ Y) ∨ (∃ Y', Y = Y' ++ z :: B ∧ A = X ++ D ++ Y') := by
  rcases List.append_eq_append_iff.1 h with ⟨_ | ⟨a, a'⟩, hXD, hzB⟩ | ⟨c', rfl, rfl⟩
  · -- the character starts `Y`
    simp only [List.append_nil, List.nil_append] at hXD hzB
    exact .inr ⟨[], by simp [hzB], by simp [hXD]⟩
  · simp only [List.cons_append, List.cons.injEq] at hzB
    obtain ⟨rfl, rfl⟩ := hzB
    rcases List.append_eq_append_iff.1 hXD with ⟨d, rfl, hD⟩ | ⟨_ | ⟨x, X'⟩, rfl, hD⟩
    · exact absurd (hD ▸ List.mem_append_right _ (List.mem_cons_self _ _)) hz
    · simp only [List.nil_append] at hD
      exact absurd (hD ▸ List.mem_cons_self _ _) hz
    · -- the character stands in `X`
      simp only [List.cons_append, List.cons.injEq] at hD
      obtain ⟨rfl, rfl⟩ := hD
      exact .inl ⟨X', rfl, by simp⟩
  · -- the character stands in `Y`
    exact .inr ⟨c', rfl, by simp⟩

/-- **Replacing a piece without a newline by a character outside the delimiters creates no
match**: the delimiters of a match avoid that character, so they stand in the text before the
replacement too, with the piece in place of the character. -/
theorem hasPair_of_replace {z : Char} (hzo : z ∉ openDelim) (hzc : z ∉ close) {A B W : List Char}
    (hW : '\n' ∉ W) (h : HasPair openDelim close (A ++ z :: B)) :
    HasPair openDelim close (A ++ W ++ B) := by
  obtain ⟨X, C, Y, hxy, hC⟩ := h
  rw [show X ++ openDelim ++ C ++ close ++ Y = X ++ openDelim ++ (C ++ close ++ Y) by simp] at hxy
  rcases append_cons_eq_split hzo hxy with ⟨X', rfl, rfl⟩ | ⟨R, hR, rfl⟩
  · -- the character stands before the match
    exact ⟨A ++ W ++ X', C, Y, by simp, hC⟩
  rcases append_cons_eq_split hzc hR.symm with ⟨C', rfl, rfl⟩ | ⟨Y', rfl, rfl⟩
  · -- the character stands in the content
    refine ⟨X, R ++ W ++ C', Y, by simp, ?_⟩
    simp only [List.mem_append, List.mem_cons, not_or] at hC ⊢
    exact ⟨⟨hC.1, hW⟩, hC.2.2⟩
  · -- the character stands after the match
    exact ⟨X, C, Y' ++ W ++ B, by simp, hC⟩

/-- **A surround replacement by single characters outside an earlier pass's delimiters creates
no match of that pass.** -/
theorem not_hasPair_surroundStep {openDelim' close' : List Char} {b e : Char}
    (hbo : b ∉ openDelim) (hbc : b ∉ close) (heo : e ∉ openDelim) (hec : e ∉ close) (hon : '\n' ∉ openDelim') (hcn : '\n' ∉ close')
    {text text' : List Char} (h : ¬ HasPair openDelim close text)
    (hs : SurroundStep openDelim' close' [b] [e] text text') :
    ¬ HasPair openDelim close text' := by
  obtain ⟨A, C, B, rfl, -, rfl⟩ := hs
  intro hp
  apply h
  have h1 : HasPair openDelim close ((A ++ [b] ++ C) ++ close' ++ B) :=
    hasPair_of_replace heo hec hcn (by simpa using hp)
  have h2 : HasPair openDelim close (A ++ openDelim' ++ (C ++ close' ++ B)) :=
    hasPair_of_replace hbo hbc hon (by simpa using h1)
  simpa using h2

end Replace

/-! ## The loop -/

section Loop

variable {openDelim close begin ending : List Char}

/-- The loop on a text without a match returns it. -/
theorem surroundLoop_of_not_hasPair (ho : openDelim ≠ []) {text : List Char}
    (h : ¬ HasPair openDelim close text) :
    ∀ fuel, surroundLoop openDelim close begin ending fuel text = text
  | 0 => rfl
  | _ + 1 => by simp [surroundLoop, (surroundCaptures_eq_none ho text).2 h]

theorem countP_mem_self (l : List Char) : l.countP (· ∈ l) = l.length :=
  List.countP_eq_length.2 fun x hx => by simpa using hx

/-- **A replacement removes one `open`** and adds no character of it. -/
theorem SurroundStep.countP_add_le (hb : ∀ x ∈ begin, x ∉ openDelim)
    (he : ∀ x ∈ ending, x ∉ openDelim) {text text' : List Char}
    (h : SurroundStep openDelim close begin ending text text') :
    text'.countP (· ∈ openDelim) + openDelim.length ≤ text.countP (· ∈ openDelim) := by
  obtain ⟨before, content, after, rfl, -, rfl⟩ := h
  have h0 : begin.countP (· ∈ openDelim) = 0 :=
    List.countP_eq_zero.2 fun x hx => by simpa using hb x hx
  have h1 : ending.countP (· ∈ openDelim) = 0 :=
    List.countP_eq_zero.2 fun x hx => by simpa using he x hx
  have h2 := countP_mem_self openDelim
  simp only [List.countP_append]
  omega

/-- A text with fewer characters of `open` than `open` has no match. -/
theorem not_hasPair_of_countP_lt {text : List Char}
    (h : text.countP (· ∈ openDelim) < openDelim.length) : ¬ HasPair openDelim close text := by
  rintro ⟨before, content, after, rfl, -⟩
  have h2 := countP_mem_self openDelim
  simp only [List.countP_append] at h
  omega

/-- **The loop stops on a text without a match within `fuel` replacements, and keeps what every
replacement keeps**, when the text has fewer than `fuel + 1` times as many characters of `open` as
`open` has: each replacement removes one `open` and adds no character of it. -/
theorem surroundLoop_bound (P : List Char → Prop)
    (hstep : ∀ t t', P t → SurroundStep openDelim close begin ending t t' → P t')
    (ho : openDelim ≠ []) (hb : ∀ x ∈ begin, x ∉ openDelim) (he : ∀ x ∈ ending, x ∉ openDelim) :
    ∀ (fuel : Nat) (text : List Char),
      text.countP (· ∈ openDelim) < (fuel + 1) * openDelim.length → P text →
      ¬ HasPair openDelim close (surroundLoop openDelim close begin ending fuel text) ∧
        P (surroundLoop openDelim close begin ending fuel text)
  | 0, _, hf, hp => ⟨not_hasPair_of_countP_lt (by simpa using hf), hp⟩
  | fuel + 1, text, hf, hp => by
    simp only [surroundLoop]
    rcases hs : surroundCaptures openDelim close text with _ | ⟨before, content, after⟩
    · exact ⟨(surroundCaptures_eq_none ho text).1 hs, hp⟩
    obtain ⟨rfl, hn⟩ := surroundCaptures_eq_some hs
    have hs' : SurroundStep openDelim close begin ending _ _ :=
      ⟨before, content, after, rfl, hn, rfl⟩
    have hcount := hs'.countP_add_le hb he
    rw [Nat.add_one_mul] at hf
    exact surroundLoop_bound P hstep ho hb he fuel _ (by omega) (hstep _ _ hp hs')

/-- **The loop stops on a text without a match, and keeps what every replacement keeps**, given
more iterations than characters of `open`. -/
theorem surroundLoop_spec (P : List Char → Prop)
    (hstep : ∀ t t', P t → SurroundStep openDelim close begin ending t t' → P t')
    (ho : openDelim ≠ []) (hb : ∀ x ∈ begin, x ∉ openDelim) (he : ∀ x ∈ ending, x ∉ openDelim)
    (fuel : Nat) (text : List Char) (hf : text.countP (· ∈ openDelim) < fuel) (hp : P text) :
    ¬ HasPair openDelim close (surroundLoop openDelim close begin ending fuel text) ∧
      P (surroundLoop openDelim close begin ending fuel text) :=
  surroundLoop_bound P hstep ho hb he fuel text
    (Nat.lt_of_lt_of_le (Nat.lt_succ_of_lt hf) (Nat.le_mul_of_pos_right _ (List.length_pos.2 ho)))
    hp

/-- `fuel` iterations after `n` are `n + fuel` iterations: the loop's state is its text. -/
theorem surroundLoop_add (ho : openDelim ≠ []) :
    ∀ (n fuel : Nat) (text : List Char),
      surroundLoop openDelim close begin ending (n + fuel) text =
        surroundLoop openDelim close begin ending fuel
          (surroundLoop openDelim close begin ending n text)
  | 0, _, _ => by rw [Nat.zero_add]; rfl
  | n + 1, fuel, text => by
    rw [Nat.add_right_comm]
    simp only [surroundLoop]
    rcases hs : surroundCaptures openDelim close text with _ | ⟨before, content, after⟩
    · exact (surroundLoop_of_not_hasPair ho ((surroundCaptures_eq_none ho text).1 hs) fuel).symm
    · exact surroundLoop_add ho n fuel _

/-- **More iterations change nothing once the loop has no match left.** -/
theorem surroundLoop_eq_of_settled (ho : openDelim ≠ []) {n m : Nat} (hnm : n ≤ m)
    {text : List Char}
    (h : ¬ HasPair openDelim close (surroundLoop openDelim close begin ending n text)) :
    surroundLoop openDelim close begin ending m text =
      surroundLoop openDelim close begin ending n text := by
  obtain ⟨k, rfl⟩ := Nat.exists_eq_add_of_le hnm
  rw [surroundLoop_add ho, surroundLoop_of_not_hasPair ho h]

end Loop

end Ftml
