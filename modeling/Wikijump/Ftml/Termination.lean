import Wikijump.Ftml.Idempotence

/-!
# Each loop of `substitute` stops, and how soon

`Replacer::replace` runs `while let Some(captures) = regex.captures_at(...)`, and nothing in the
loop bounds it: a quote pass searches again from the start after every replacement, and the text
grows.  What bounds it is what a replacement removes: an opening delimiter, or three dots, that no
later iteration writes back.

* `Replacer.loop` — the loop run for at most `fuel` iterations; `replace` is `loop` at its bound;
* `Replacer.StopsWithin` — the loop makes at most `n` replacements: after `n` iterations its regex
  matches nowhere, so the `while let` exits, with what `replace` returns;
* `regexSurround_stopsWithin` — a quote pass stops within `n` replacements when the text has fewer
  than `n + 1` times as many characters of its opening delimiter as the delimiter has;
* `horizontalEllipsis_stopsWithin` — the ellipsis pass stops within a third of the dots;
* `replace_stopsWithin_bounds` — **the bounds of the four passes**, in backticks, commas and dots
  of the text each pass starts from.
-/

set_option autoImplicit false

namespace Ftml

/-- The loop of `Replacer::replace` run for at most `fuel` iterations. -/
def Replacer.loop : Replacer → Nat → List Char → List Char
  | .regexReplace replacement, fuel, text => replaceLoop replacement fuel text 0
  | .regexSurround openDelim close begin ending, fuel, text =>
    surroundLoop openDelim close begin ending fuel text

theorem Replacer.replace_eq_loop (r : Replacer) (text : List Char) :
    r.replace text = r.loop (text.length + 1) text := by
  cases r <;> rfl

/-- The loop of `r.replace` on `text` makes at most `n` replacements: after `n` iterations its
regex matches nowhere, and the text it holds then is what `replace` returns. -/
structure Replacer.StopsWithin (r : Replacer) (n : Nat) (text : List Char) : Prop where
  settled : r.Settled (r.loop n text)
  eq_replace : r.loop n text = r.replace text

/-! ## One pass -/

/-- **A quote pass stops within `n` replacements** on a text with fewer than `n + 1` times as many
characters of its opening delimiter as the delimiter has. -/
theorem regexSurround_stopsWithin {openDelim close : List Char} {b e : Char}
    (ho : openDelim ≠ []) (hw : ∀ x ∈ [b, e], x ∉ openDelim) {n : Nat} {text : List Char}
    (hn : text.countP (· ∈ openDelim) < (n + 1) * openDelim.length) :
    (Replacer.regexSurround openDelim close [b] [e]).StopsWithin n text := by
  have hs : ¬ HasPair openDelim close (surroundLoop openDelim close [b] [e] n text) :=
    (surroundLoop_bound (fun _ => True) (fun _ _ _ _ => trivial) ho
      (by simpa using hw b (by simp)) (by simpa using hw e (by simp)) n text hn trivial).1
  refine ⟨hs, ?_⟩
  rcases le_total n (text.length + 1) with h | h
  · exact (surroundLoop_eq_of_settled ho h hs).symm
  · exact surroundLoop_eq_of_settled ho h (regexSurround_settled_replace ho hw text)

/-- **The ellipsis pass stops within a third of the dots.** -/
theorem horizontalEllipsis_stopsWithin (text : List Char) :
    HORIZONTAL_ELLIPSIS.StopsWithin (text.count '.' / 3) text := by
  have hs : NoEllipsis (replaceLoop ['…'] (text.count '.' / 3) text 0) :=
    (replaceLoop_bound (fun _ => True) (fun _ _ _ _ => trivial) _ text 0 (by omega)
      (noMatchBefore_zero text) trivial).1
  have hle := List.count_le_length '.' text
  exact ⟨hs, (replaceLoop_eq_of_settled ['…'] (by omega) hs).symm⟩

theorem countP_mem_replicate (c : Char) (k : Nat) (text : List Char) :
    text.countP (· ∈ List.replicate (k + 1) c) = text.count c := by
  simp only [List.count, List.mem_replicate, ne_eq, Nat.add_one_ne_zero, not_false_eq_true,
    true_and]
  rfl

/-! ## The four passes -/

/-- **Each loop of `substitute` stops**: the loop of `DOUBLE_QUOTES` within half the backticks of
its text, `LOW_DOUBLE_QUOTES` within half the commas, `SINGLE_QUOTES` within the backticks, and
`HORIZONTAL_ELLIPSIS` within a third of the dots. -/
theorem replace_stopsWithin_bounds (text : List Char) :
    DOUBLE_QUOTES.StopsWithin (text.count '\x60' / 2) text ∧
      LOW_DOUBLE_QUOTES.StopsWithin (text.count ',' / 2) text ∧
      SINGLE_QUOTES.StopsWithin (text.count '\x60') text ∧
      HORIZONTAL_ELLIPSIS.StopsWithin (text.count '.' / 3) text := by
  have h2 (c : Char) : text.countP (· ∈ [c, c]) < (text.count c / 2 + 1) * [c, c].length := by
    rw [show [c, c] = List.replicate 2 c from rfl, countP_mem_replicate, List.length_replicate]
    omega
  have h1 (c : Char) : text.countP (· ∈ [c]) < (text.count c + 1) * [c].length := by
    rw [show [c] = List.replicate 1 c from rfl, countP_mem_replicate, List.length_replicate]
    omega
  exact ⟨regexSurround_stopsWithin (by decide) (by decide) (h2 _),
    regexSurround_stopsWithin (by decide) (by decide) (h2 _),
    regexSurround_stopsWithin (by decide) (by decide) (h1 _),
    horizontalEllipsis_stopsWithin text⟩

end Ftml
