import Wikijump.Ftml.Pieces
import Wikijump.Ftml.Ellipsis

/-!
# `substitute` only rewrites pieces

**Every string is cut into pieces whose images make `substitute s`: characters left as they are,
quote pieces paired one to one with no newline inside a pair, and `repl` groups with no `.` next to
them** (`substitute_factorization`).

The proof carries a cutting of the input along the four passes.  What the passes write, `“„”‘’…`,
is none of the characters their regexes read, so every run a replacement rewrites is a run of
characters left as they are so far, and becomes one piece.

* `map_out_eq_keep` — a run of plain characters in the current text is a run of `keep` pieces;
* `Cutting` — pieces that make the input and write the current text, each label read as a pair;
* `Quoted.surroundStep` — a quote replacement adds a pair with a fresh label;
* `Dotted.ellipsisStep` — a replacement by `…` adds an ellipsis piece apart from its neighbours;
* `substitute_factorization` — the four passes.
-/

set_option autoImplicit false

namespace Ftml

open Piece

/-- A run of plain characters in what the pieces write is a run of pieces left as they are. -/
theorem eq_map_keep : ∀ {W : List Piece} {K : List Char}, W.map out = K → (∀ x ∈ K, Plain x) →
    W = K.map keep
  | [], _, h, _ => by rw [← h]; rfl
  | p :: W, _, rfl, hK => by
    rw [List.map_cons, List.map_cons, ← eq_keep_of_out rfl (hK _ (List.mem_cons_self _ _)),
      ← eq_map_keep rfl fun x hx => hK x (List.mem_cons_of_mem _ hx)]

/-- **A run of plain characters in the current text is a run of `keep` pieces of the cutting.** -/
theorem map_out_eq_keep {ws : List Piece} {X K Y : List Char} (hK : ∀ x ∈ K, Plain x)
    (h : ws.map out = X ++ K ++ Y) :
    ∃ W₁ W₂, ws = W₁ ++ K.map keep ++ W₂ ∧ W₁.map out = X ∧ W₂.map out = Y := by
  obtain ⟨WXK, W₂, rfl, hXK, hY⟩ := List.map_eq_append_iff.1 h
  obtain ⟨W₁, WK, rfl, hX, hK'⟩ := List.map_eq_append_iff.1 hXK
  exact ⟨W₁, W₂, by rw [eq_map_keep hK' hK], hX, hY⟩

theorem Scan.foldl_map_keep {k : Nat} {K : List Char} (hK : ∀ x ∈ K, Plain x) (s : Scan) :
    (K.map keep).foldl (Scan.next k) s = s :=
  Scan.foldl_of_label_ne (fun p hp => by
    obtain ⟨x, hx, rfl⟩ := List.mem_map.1 hp
    have := hK x hx
    refine ⟨by simp, ?_⟩
    simp only [source_keep, List.mem_singleton]
    rintro rfl
    exact this (by simp)) s

theorem Quote.source_plain (q : Quote) : ∀ x ∈ q.source, Plain x := by
  cases q <;> decide

theorem Quote.out_not_mem_source (q q' : Quote) : q.out ∉ q'.source := by
  cases q <;> cases q' <;> decide

/-- A piece of another label leaves the reading where it is. -/
theorem Scan.next_quote_of_ne {k L : Nat} (h : L ≠ k) (q : Quote) (s : Scan) :
    Scan.next k s (quote q L) = s :=
  Scan.next_of_label_ne (by simpa using h) (by cases q <;> simp [Quote.source]) s

/-! ## The cutting -/

/-- The pieces `ws` make `s` and write `text`, and the reading of each label ends outside a pair. -/
structure Cutting (s text : List Char) (ws : List Piece) : Prop where
  source : ws.flatMap Piece.source = s
  out : ws.map Piece.out = text
  closed : ∀ k, Scan.run k ws = .before ∨ Scan.run k ws = .after

/-- A cutting during the quote passes: no ellipsis piece yet, and every label below `fresh`. -/
structure QuoteCutting (s text : List Char) (ws : List Piece) (fresh : Nat) extends
    Cutting s text ws : Prop where
  noEllipsis : ∀ p ∈ ws, p.isEllipsis = false
  labels : ∀ p ∈ ws, ∀ k, p.label = some k → k < fresh

/-- `text` is what the quote passes made of `s` so far. -/
def Quoted (s text : List Char) : Prop := ∃ ws fresh, QuoteCutting s text ws fresh

/-- `text` is what the ellipsis pass made of `s` so far: a cutting whose neighbours are apart. -/
def Dotted (s text : List Char) : Prop := ∃ ws, Cutting s text ws ∧ ws.Chain' Apart

theorem Quoted.init (s : List Char) : Quoted s s :=
  ⟨s.map keep, 0,
    { source := flatMap_map_keep s
      out := by simp [Function.comp_def]
      closed := fun _ => .inl (Scan.foldl_of_outside (by simp) (.inl rfl))
      noEllipsis := by simp
      labels := by simp }⟩

theorem Quoted.dotted {s text : List Char} (h : Quoted s text) : Dotted s text :=
  let ⟨ws, _, hq⟩ := h
  ⟨ws, hq.toCutting, List.Pairwise.chain' (List.pairwise_of_forall_mem_list
    fun x hx y hy => Apart.of_isEllipsis (hq.noEllipsis x hx) (hq.noEllipsis y hy))⟩

/-! ## The quote passes -/

/-- The reading of the fresh label over a new pair: before it, through the content, after it. -/
theorem Scan.run_pair {L : Nat} {W₁ W₂ W₃ : List Piece} {qo qc : Quote} (hq : qo.closer = some qc)
    (h₁ : ∀ p ∈ W₁, p.label ≠ some L)
    (h₂ : ∀ p ∈ W₂, p.label ≠ some L ∧ '\n' ∉ p.source) (h₃ : ∀ p ∈ W₃, p.label ≠ some L) :
    Scan.run L (W₁ ++ quote qo L :: (W₂ ++ quote qc L :: W₃)) = .after := by
  simp only [Scan.run, List.foldl_append, List.foldl_cons, Scan.foldl_of_outside h₁ (.inl rfl)]
  simp only [Scan.next, if_true, hq, Option.elim_some, Scan.foldl_of_label_ne h₂]
  exact Scan.foldl_of_outside h₃ (.inr rfl)

/-- **A quote replacement adds a pair with a fresh label.** -/
theorem Quoted.surroundStep {s text text' : List Char} {qo qc : Quote} (hq : qo.closer = some qc)
    (h : Quoted s text) (hs : SurroundStep qo.source qc.source [qo.out] [qc.out] text text') :
    Quoted s text' := by
  obtain ⟨ws, L, hc⟩ := h
  obtain ⟨before, content, after, rfl, hn, rfl⟩ := hs
  have h₀ : ws.map out = before ++ qo.source ++ (content ++ qc.source ++ after) := by
    rw [hc.out]; simp only [List.append_assoc]
  obtain ⟨W₁, R, rfl, h₁, hR⟩ := map_out_eq_keep qo.source_plain h₀
  obtain ⟨W₂, W₃, rfl, h₂, h₃⟩ := map_out_eq_keep qc.source_plain hR
  have hmem : ∀ p, p ∈ W₁ ∨ p ∈ W₂ ∨ p ∈ W₃ →
      p ∈ W₁ ++ qo.source.map keep ++ (W₂ ++ qc.source.map keep ++ W₃) := by
    rintro p (hp | hp | hp) <;> simp [hp]
  have hfresh : ∀ p, p ∈ W₁ ∨ p ∈ W₂ ∨ p ∈ W₃ → p.label ≠ some L := fun p hp hl =>
    Nat.lt_irrefl L (hc.labels p (hmem p hp) L hl)
  have hnew : ∀ p ∈ W₁ ++ quote qo L :: (W₂ ++ quote qc L :: W₃),
      (p ∈ W₁ ∨ p ∈ W₂ ∨ p ∈ W₃) ∨ ∃ q, p = quote q L := by
    simp only [List.mem_append, List.mem_cons]
    rintro p (hp | rfl | hp | rfl | hp)
    exacts [.inl (.inl hp), .inr ⟨_, rfl⟩, .inl (.inr (.inl hp)), .inr ⟨_, rfl⟩,
      .inl (.inr (.inr hp))]
  refine ⟨W₁ ++ quote qo L :: (W₂ ++ quote qc L :: W₃), L + 1,
    { source := ?_, out := ?_, closed := fun k => ?_,
      noEllipsis := fun p hp => (hnew p hp).elim (fun h => hc.noEllipsis p (hmem p h))
        fun ⟨_, h⟩ => h ▸ rfl,
      labels := fun p hp k hk => (hnew p hp).elim
        (fun h => Nat.lt_succ_of_lt (hc.labels p (hmem p h) k hk))
        fun ⟨_, h⟩ => by subst h; simp only [label_quote, Option.some.injEq] at hk; omega }⟩
  · rw [← hc.source]
    simp
  · simp [h₁, h₂, h₃]
  · by_cases hk : L = k
    · subst hk
      refine .inr (Scan.run_pair hq (fun p hp => hfresh p (.inl hp))
        (fun p hp => ⟨hfresh p (.inr (.inl hp)), newline_not_mem_source ?_⟩)
        (fun p hp => hfresh p (.inr (.inr hp))))
      rintro hp'
      exact hn (h₂ ▸ List.mem_map.2 ⟨p, hp, hp'⟩)
    · simpa only [Scan.run, List.foldl_append, List.foldl_cons, Scan.foldl_map_keep qo.source_plain,
        Scan.foldl_map_keep qc.source_plain, Scan.next_quote_of_ne hk] using hc.closed k

/-- **A quote pass keeps a cutting**: it is a run of quote replacements. -/
theorem Quoted.replace {s text : List Char} (h : Quoted s text) (qo qc : Quote)
    (hq : qo.closer = some qc) :
    Quoted s ((Replacer.regexSurround qo.source qc.source [qo.out] [qc.out]).replace text) :=
  (surroundLoop_spec (Quoted s) (fun _ _ ht hst => ht.surroundStep hq hst)
    (by cases qo <;> simp [Quote.source]) (by simpa using qo.out_not_mem_source qo)
    (by simpa using qc.out_not_mem_source qo) _ text
    (Nat.lt_succ_of_le (List.countP_le_length _)) h).2

/-! ## The ellipsis pass -/

theorem ellipsis_source_plain (spaced : Bool) : ∀ x ∈ (ellipsis spaced).source, Plain x := by
  cases spaced <;> decide

/-- **A replacement by `…` adds an ellipsis piece, apart from its neighbours**: the characters
around the group are not `.`, and the pieces there are no ellipsis pieces, which would have been
apart from the group's first or last `.`. -/
theorem Dotted.ellipsisStep {s text text' : List Char} (h : Dotted s text)
    (hs : IsolatedEllipsisStep text text') : Dotted s text' := by
  obtain ⟨ws, hc, hchain⟩ := h
  obtain ⟨before, repl, after, rfl, hr, hb, ha, rfl⟩ := hs
  obtain ⟨sp, rfl⟩ : ∃ sp, (ellipsis sp).source = repl := by
    rcases hr with rfl | rfl
    exacts [⟨false, rfl⟩, ⟨true, rfl⟩]
  obtain ⟨W₁, W₂, rfl, h₁, h₂⟩ := map_out_eq_keep (ellipsis_source_plain sp) hc.out
  have hK : ((ellipsis sp).source.map keep).head? = some (keep '.') ∧
      ((ellipsis sp).source.map keep).getLast? = some (keep '.') := by
    cases sp <;> exact ⟨rfl, rfl⟩
  obtain ⟨⟨hc₁, -, hj₁⟩, hc₂, hj₂⟩ :=
    (List.chain'_append.1 hchain).imp_left List.chain'_append.1
  refine ⟨W₁ ++ ellipsis sp :: W₂, ⟨?_, ?_, fun k => ?_⟩, ?_⟩
  · rw [← hc.source]
    simp
  · simp [h₁, h₂]
  · have := hc.closed k
    simp only [Scan.run, List.foldl_append, List.foldl_cons,
      Scan.foldl_map_keep (ellipsis_source_plain sp)] at this ⊢
    rwa [Scan.next_of_label_ne (by simp [label]) (by cases sp <;> simp [source])]
  · have hlast : (W₁ ++ (ellipsis sp).source.map keep).getLast? = some (keep '.') := by
      rw [List.getLast?_append_of_ne_nil _ (by cases sp <;> simp [source])]
      exact hK.2
    refine List.chain'_append.2 ⟨hc₁, List.chain'_cons'.2 ⟨fun y hy => ?_, hc₂⟩, ?_⟩
    · -- the piece after the group
      refine (hj₂ _ hlast y hy).ellipsis_of_right (fun he => ha ?_) sp
      rw [← h₂, List.head?_map, Option.mem_def.1 hy]
      simp [he]
    · -- the piece before the group
      rintro x hx _ ⟨⟩
      refine (hj₁ x hx _ hK.1).ellipsis_of_left (fun he => hb ?_) sp
      rw [← h₁, List.getLast?_map, Option.mem_def.1 hx]
      simp [he]

/-- **The ellipsis pass keeps a cutting**: it is a run of isolated replacements. -/
theorem Dotted.replace {s text : List Char} (h : Dotted s text) :
    Dotted s (HORIZONTAL_ELLIPSIS.replace text) :=
  (replaceLoop_bound (Dotted s) (fun _ _ ht hst => ht.ellipsisStep hst) _ text 0
    (by have := List.count_le_length '.' text; omega) (noMatchBefore_zero text) h).2

/-! ## The four passes -/

/-- **`substitute` only rewrites pieces**: every string is cut into pieces that make it, whose
images make `substitute s`, with every quote piece in a pair labelled by itself alone, and no
`.` next to an ellipsis piece. -/
theorem substitute_factorization (s : String) :
    ∃ ws : List Piece, s.data = ws.flatMap Piece.source ∧ (substitute s).data = ws.map Piece.out ∧
      (∀ k, PairedAt k ws) ∧ DotsIsolated ws := by
  have hd : Quoted s.data (DOUBLE_QUOTES.replace s.data) :=
    (Quoted.init s.data).replace .doubleOpen .doubleClose rfl
  have hl : Quoted s.data (LOW_DOUBLE_QUOTES.replace (DOUBLE_QUOTES.replace s.data)) :=
    hd.replace .lowOpen .doubleClose rfl
  have hs : Quoted s.data
      (SINGLE_QUOTES.replace (LOW_DOUBLE_QUOTES.replace (DOUBLE_QUOTES.replace s.data))) :=
    hl.replace .singleOpen .singleClose rfl
  obtain ⟨ws, hc, hchain⟩ := hs.dotted.replace
  exact ⟨ws, hc.source.symm, hc.out.symm, fun k => Scan.pairedAt_of_run (hc.closed k),
    dotsIsolated_of_chain hchain⟩

end Ftml
