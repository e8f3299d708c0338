import Wikijump.Ftml.Ellipsis

/-!
# `substitute` is idempotent

Running `substitute` on its own output changes nothing.  No regex of the four passes matches
that output, and a pass returns such a text unchanged.

* `Replacer.Settled` — the regex of a replacer matches nowhere in a text;
* `regexSurround_settled_replace`, `horizontalEllipsis_settled_replace` — each pass leaves no
  match of its own regex (both loops stop before their bound);
* `regexSurround_replace_keeps`, `horizontalEllipsis_replace_keeps` — a pass creates no match of
  a quote regex whose delimiters avoid the characters it writes;
* `substitute_typeset` — **the output of `substitute` is `Typeset`**: no regex of the four
  passes matches it;
* `Typeset.substitute` — `substitute` returns a typeset text unchanged;
* `substitute_idempotent` — **`substitute (substitute s) = substitute s`**.
-/

set_option autoImplicit false

namespace Ftml

def Replacer.Settled : Replacer → List Char → Prop
  | .regexReplace _, text => NoEllipsis text
  | .regexSurround openDelim close _ _, text => ¬ HasPair openDelim close text

/-- A text on which no regex of `substitute` matches. -/
structure Typeset (text : List Char) : Prop where
  doubleQuotes : DOUBLE_QUOTES.Settled text
  lowDoubleQuotes : LOW_DOUBLE_QUOTES.Settled text
  singleQuotes : SINGLE_QUOTES.Settled text
  horizontalEllipsis : HORIZONTAL_ELLIPSIS.Settled text

/-! ## One pass -/

section Quotes

variable {openDelim close : List Char} {b e : Char}

/-- **A quote pass leaves no match of its own regex**, when it writes no opening delimiter. -/
theorem regexSurround_settled_replace (ho : openDelim ≠ []) (hw : ∀ x ∈ [b, e], x ∉ openDelim)
    (text : List Char) :
    (Replacer.regexSurround openDelim close [b] [e]).Settled
      ((Replacer.regexSurround openDelim close [b] [e]).replace text) :=
  (surroundLoop_spec (fun _ => True) (fun _ _ _ _ => trivial) ho (by simpa using hw b (by simp))
    (by simpa using hw e (by simp)) _ text (Nat.lt_succ_of_le (List.countP_le_length _)) trivial).1

/-- **A quote pass creates no match of a quote regex `o(.*?)c`** when what it writes is neither
`o`, `c` nor its own opening delimiter, and its own delimiters have no newline. -/
theorem regexSurround_replace_keeps {o c : List Char}
    (hw : ∀ x ∈ [b, e], x ∉ o ∧ x ∉ c ∧ x ∉ openDelim)
    (hn : openDelim ≠ [] ∧ '\n' ∉ openDelim ++ close) {text : List Char} (h : ¬ HasPair o c text) :
    ¬ HasPair o c ((Replacer.regexSurround openDelim close [b] [e]).replace text) := by
  obtain ⟨hbo, hbc, hb⟩ := hw b (by simp)
  obtain ⟨heo, hec, he⟩ := hw e (by simp)
  have hstep (t t' : List Char) (ht : ¬ HasPair o c t)
      (hs : SurroundStep openDelim close [b] [e] t t') : ¬ HasPair o c t' :=
    not_hasPair_surroundStep hbo hbc heo hec (fun h => hn.2 (List.mem_append_left _ h))
      (fun h => hn.2 (List.mem_append_right _ h)) ht hs
  exact (surroundLoop_spec _ hstep hn.1 (by simpa using hb) (by simpa using he) _ text
    (Nat.lt_succ_of_le (List.countP_le_length _)) h).2

theorem regexSurround_replace_of_settled {begin ending : List Char} (ho : openDelim ≠ [])
    {text : List Char} (h : (Replacer.regexSurround openDelim close begin ending).Settled text) :
    (Replacer.regexSurround openDelim close begin ending).replace text = text :=
  surroundLoop_of_not_hasPair ho h _

end Quotes

/-- **The ellipsis pass leaves no match**: the loop stops before its bound. -/
theorem horizontalEllipsis_settled_replace (text : List Char) :
    HORIZONTAL_ELLIPSIS.Settled (HORIZONTAL_ELLIPSIS.replace text) :=
  (replaceLoop_spec (fun _ => True) (fun _ _ _ _ => trivial) _ text 0 (Nat.lt_succ_self _)
    (noMatchBefore_zero text) trivial).1

/-- **The ellipsis pass creates no match of a quote regex** whose delimiters avoid `…`. -/
theorem horizontalEllipsis_replace_keeps {o c : List Char} (hz : '…' ∉ o ++ c) {text : List Char}
    (h : ¬ HasPair o c text) :
    ¬ HasPair o c (HORIZONTAL_ELLIPSIS.replace text) :=
  have hstep (t t' : List Char) (ht : ¬ HasPair o c t) (hs : EllipsisStep t t') :
      ¬ HasPair o c t' :=
    not_hasPair_ellipsisStep (fun h => hz (List.mem_append_left _ h))
      (fun h => hz (List.mem_append_right _ h)) ht hs
  (replaceLoop_spec _ hstep _ text 0 (Nat.lt_succ_self _)
    (noMatchBefore_zero text) h).2

theorem horizontalEllipsis_replace_of_settled {text : List Char}
    (h : HORIZONTAL_ELLIPSIS.Settled text) : HORIZONTAL_ELLIPSIS.replace text = text :=
  replaceLoop_of_noEllipsis h _ _ _

/-! ## The four passes -/

/-- **The output of `substitute` is typeset.**  Each quote pass leaves no match of its own regex,
no later pass creates a match of the regex of an earlier one (what they write, `“”„‘’…`, is none
of the delimiters), and the ellipsis pass leaves no match. -/
theorem substitute_typeset (s : String) : Typeset (substitute s).data where
  doubleQuotes :=
    horizontalEllipsis_replace_keeps (by decide) <|
    regexSurround_replace_keeps (by decide) (by decide) <|
    regexSurround_replace_keeps (by decide) (by decide) <|
    regexSurround_settled_replace (by decide) (by decide) _
  lowDoubleQuotes :=
    horizontalEllipsis_replace_keeps (by decide) <|
    regexSurround_replace_keeps (by decide) (by decide) <|
    regexSurround_settled_replace (by decide) (by decide) _
  singleQuotes :=
    horizontalEllipsis_replace_keeps (by decide) <|
    regexSurround_settled_replace (by decide) (by decide) _
  horizontalEllipsis := horizontalEllipsis_settled_replace _

/-- **`substitute` returns a typeset text unchanged**: every pass finds nothing to replace. -/
theorem Typeset.substitute {text : List Char} (h : Typeset text) :
    Ftml.substitute ⟨text⟩ = ⟨text⟩ := by
  have hd : DOUBLE_QUOTES.replace text = text :=
    regexSurround_replace_of_settled (by decide) h.doubleQuotes
  have hl : LOW_DOUBLE_QUOTES.replace text = text :=
    regexSurround_replace_of_settled (by decide) h.lowDoubleQuotes
  have hs : SINGLE_QUOTES.replace text = text :=
    regexSurround_replace_of_settled (by decide) h.singleQuotes
  have he : HORIZONTAL_ELLIPSIS.replace text = text :=
    horizontalEllipsis_replace_of_settled h.horizontalEllipsis
  simp only [Ftml.substitute, hd, hl, hs, he]

theorem substitute_idempotent (s : String) : substitute (substitute s) = substitute s :=
  (substitute_typeset s).substitute

end Ftml
