import ExprLang.Proofs.Lexing.Places

/-!
# The extent of tokens

The tokens of a line are not empty and stand one behind the other (`ordered_tokensAt`). So the place
of a run of tokens, from the start of the first to the end of the last, is the least span that
covers all of them, and the places of runs are contained in each other and apart from each other as
the runs are.
-/

namespace ExprLang

/-- Tokens that are not empty and stand one behind the other. -/
structure Ordered (ts : List Token) : Prop where
  start_lt_stop : ∀ t ∈ ts, t.span.start < t.span.stop
  pairwise : ts.Pairwise fun s t => s.span.stop ≤ t.span.start

/-- The place of tokens, from the start of the first to the end of the last. -/
def extent (ts : List Token) : Span :=
  ⟨(ts.head?.map fun t => t.span.start).getD 0, (ts.getLast?.map fun t => t.span.stop).getD 0⟩

variable {ts us vs : List Token} {t : Token}

theorem extent_of_first_of_last {first last : Token} (hfirst : ts.head? = some first)
    (hlast : ts.getLast? = some last) : extent ts = ⟨first.span.start, last.span.stop⟩ := by
  rw [extent, hfirst, hlast]
  rfl

theorem exists_first_last (h : ts ≠ []) : ∃ first last, ts.head? = some first ∧
    ts.getLast? = some last ∧ extent ts = ⟨first.span.start, last.span.stop⟩ := by
  have hfirst := List.head?_eq_some_head h
  have hlast := List.getLast?_eq_some_getLast h
  exact ⟨_, _, hfirst, hlast, extent_of_first_of_last hfirst hlast⟩

/-- What is between the first and the last tokens does not matter. -/
theorem extent_append (hts : ts ≠ []) (hvs : vs ≠ []) :
    extent (ts ++ (us ++ vs)) = ⟨(extent ts).start, (extent vs).stop⟩ := by
  obtain ⟨first, _, hfirst, -, hextent⟩ := exists_first_last hts
  obtain ⟨_, last, -, hlast, hextent'⟩ := exists_first_last hvs
  rw [hextent, hextent']
  refine extent_of_first_of_last ?_ ?_
  · rw [List.head?_append, hfirst, Option.some_or]
  · rw [List.getLast?_append, List.getLast?_append, hlast, Option.some_or, Option.some_or]

namespace Ordered

theorem sublist (h : Ordered ts) (hsub : us.Sublist ts) : Ordered us where
  start_lt_stop t ht := h.start_lt_stop t (hsub.subset ht)
  pairwise := h.pairwise.sublist hsub

theorem of_append (h : Ordered (ts ++ us)) : Ordered ts ∧ Ordered us :=
  ⟨h.sublist (List.sublist_append_left ts us), h.sublist (List.sublist_append_right ts us)⟩

theorem of_cons (h : Ordered (t :: ts)) : Ordered ts := h.sublist (List.sublist_cons_self t ts)

/-- Every token is within the extent. -/
theorem extent_covers (h : Ordered ts) (ht : t ∈ ts) :
    (extent ts).start ≤ t.span.start ∧ t.span.stop ≤ (extent ts).stop := by
  obtain ⟨first, last, hfirst, hlast, hextent⟩ := exists_first_last (List.ne_nil_of_mem ht)
  rw [hextent]
  constructor
  · obtain ⟨rest, rfl⟩ := List.head?_eq_some_iff.1 hfirst
    have hpos := h.start_lt_stop first List.mem_cons_self
    rcases List.mem_cons.1 ht with rfl | ht
    · exact Nat.le_refl _
    · have hle := (List.pairwise_cons.1 h.pairwise).1 t ht
      dsimp only
      omega
  · obtain ⟨rest, rfl⟩ := List.getLast?_eq_some_iff.1 hlast
    have hpos := h.start_lt_stop last (by simp)
    rcases List.mem_append.1 ht with ht | ht
    · have hle := (List.pairwise_append.1 h.pairwise).2.2 t ht last (List.mem_singleton_self last)
      dsimp only
      omega
    · rw [List.mem_singleton.1 ht]

/-- The extent is no empty span. -/
theorem extent_lt (h : Ordered ts) (hne : ts ≠ []) : (extent ts).start < (extent ts).stop := by
  obtain ⟨t, ht⟩ := List.exists_mem_of_ne_nil ts hne
  obtain ⟨hstart, hstop⟩ := h.extent_covers ht
  have hpos := h.start_lt_stop t ht
  omega

/-- The extent of a part is within the extent of the whole. -/
theorem extent_subset (h : Ordered ts) (hus : us ≠ []) (hsub : us ⊆ ts) :
    (extent ts).start ≤ (extent us).start ∧ (extent us).stop ≤ (extent ts).stop := by
  obtain ⟨first, last, hfirst, hlast, hextent⟩ := exists_first_last hus
  rw [hextent]
  exact ⟨(h.extent_covers (hsub (List.mem_of_mem_head? hfirst))).1,
    (h.extent_covers (hsub (List.mem_of_mem_getLast? hlast))).2⟩

/-- Tokens that stand behind others have an extent behind theirs. -/
theorem extent_le (h : Ordered (ts ++ us)) (hts : ts ≠ []) (hus : us ≠ []) :
    (extent ts).stop ≤ (extent us).start := by
  obtain ⟨_, last, -, hlast, hextent⟩ := exists_first_last hts
  obtain ⟨first, _, hfirst, -, hextent'⟩ := exists_first_last hus
  rw [hextent, hextent']
  exact (List.pairwise_append.1 h.pairwise).2.2 last (List.mem_of_mem_getLast? hlast) first
    (List.mem_of_mem_head? hfirst)

/-- **The least span that covers the first and the last tokens** covers all of them. -/
theorem extent_union (h : Ordered (ts ++ (us ++ vs))) (hts : ts ≠ []) (hvs : vs ≠ []) :
    extent (ts ++ (us ++ vs)) = (extent ts).union (extent vs) := by
  have hts' := h.of_append.1.extent_lt hts
  have hvs' := h.of_append.2.of_append.2.extent_lt hvs
  have hle : (extent ts).stop ≤ (extent vs).start :=
    (h.sublist ((List.sublist_append_right us vs).append_left ts)).extent_le hts hvs
  rw [extent_append hts hvs, Span.union, Nat.min_eq_left (by omega), Nat.max_eq_right (by omega)]

/-- The extent of a token and what follows, when the last tokens are known. -/
theorem extent_cons (h : Ordered (t :: ts)) (hus : us ≠ []) (hsuffix : us <:+ ts) :
    Ordered us ∧ extent (t :: ts) = t.span.union (extent us) := by
  obtain ⟨vs, rfl⟩ := hsuffix
  exact ⟨h.of_cons.of_append.2, h.extent_union (List.cons_ne_nil t []) hus⟩

end Ordered

/-! ### The tokens of a line -/

/-- The tokens of a line are ordered. -/
theorem ordered_tokensAt (offset : Nat) (cs : List Char) : Ordered (tokensAt offset (lexemes cs)) where
  start_lt_stop t ht := by
    have hpos : 0 < t.size := size_pos_of_mem_lexemes (toLexeme_mem_of_mem_tokensAt ht)
    obtain ⟨-, hstop, -⟩ := bounds_of_mem_tokensAt ht
    omega
  pairwise := tokensAt_pairwise offset (lexemes cs)

/-- Lexemes that are laid side by side fill their extent. -/
theorem extent_tokensAt (offset : Nat) {ls : List Lexeme} (hne : ls ≠ []) :
    extent (tokensAt offset ls) = ⟨offset, offset + (ls.map Lexeme.size).sum⟩ := by
  induction ls generalizing offset with
  | nil => exact absurd rfl hne
  | cons l ls ih =>
    cases ls with
    | nil => rfl
    | cons m ls =>
      have hrest := ih (offset + l.size) (List.cons_ne_nil m ls)
      have hsplit : tokensAt offset (l :: m :: ls) =
          [⟨l, ⟨offset, offset + l.size⟩⟩] ++ ([] ++ tokensAt (offset + l.size) (m :: ls)) := rfl
      have hne : tokensAt (offset + l.size) (m :: ls) ≠ [] := List.cons_ne_nil _ _
      rw [hsplit, extent_append (List.cons_ne_nil _ _) hne, hrest]
      exact congrArg (Span.mk offset) (Nat.add_assoc ..)

end ExprLang
