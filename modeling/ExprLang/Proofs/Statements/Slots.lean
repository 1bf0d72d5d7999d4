import ExprLang.Parser.Statement
import ExprLang.Proofs.Lexing.Tiling

/-!
# The slots of a line

The tokens of a line that the grammar mentions, cut at the semicolons. What is behind the last
semicolon is a slot only if it has a token. Slots are defined from the tokens alone, without the
reader, and do not overlap: no two of them share a place.
-/

namespace ExprLang

/-- The tokens of one statement, the token that ends it, and where it begins: at the end of the
semicolon before it. -/
structure Slot where
  start : Nat
  tokens : List Token
  terminator : Token

namespace Slot

/-- The tokens at which an error of a slot can stand. -/
def places (s : Slot) : List Token := s.tokens ++ [s.terminator]

/-- Whether a place is one of the slot. -/
def Holds (s : Slot) (span : Span) : Prop := ∃ t ∈ s.places, t.span = span

/-- Whether an offset is in the slot, its terminator excluded. -/
def Covers (s : Slot) (offset : Nat) : Prop :=
  s.start ≤ offset ∧ offset < s.terminator.span.start

end Slot

/-- The slots of tokens, of which the first one begins at an offset and already has the tokens
`held`. -/
def slotsFrom : Nat → List Token → List Token → List Slot
  | _, _, [] => []
  | start, held, t :: ts =>
    if t.kind = .symbol .semicolon then ⟨start, held, t⟩ :: slotsFrom t.span.stop [] ts
    else if t.kind = .endOfInput then if held.isEmpty then [] else [⟨start, held, t⟩]
    else slotsFrom start (held ++ [t]) ts

/-- The tokens of a line without layout and stray characters. -/
def significantTokens (line : String) : List Token :=
  (tokenize line).1.filter fun t => !t.kind.isTrivia

/-- The slots of a line. -/
def slots (line : String) : List Slot := slotsFrom 0 [] (significantTokens line)

/-- A slot ends at a semicolon or at the end of input. -/
theorem terminator_kind {start : Nat} {held ts : List Token} {s : Slot}
    (hs : s ∈ slotsFrom start held ts) :
    s.terminator.kind = .symbol .semicolon ∨ s.terminator.kind = .endOfInput := by
  induction ts generalizing start held with
  | nil => cases hs
  | cons t ts ih =>
    unfold slotsFrom at hs
    split_ifs at hs with hsemicolon hend hheld
    · rcases List.mem_cons.1 hs with rfl | hs
      · exact Or.inl hsemicolon
      · exact ih hs
    · cases hs
    · rw [List.mem_singleton.1 hs]
      exact Or.inr hend
    · exact ih hs

/-! ### Order of the slots -/

/-- The places of the slots are tokens, in their order. -/
theorem flatMap_places_sublist (start : Nat) (held ts : List Token) :
    ((slotsFrom start held ts).flatMap Slot.places).Sublist (held ++ ts) := by
  induction ts generalizing start held with
  | nil => exact List.nil_sublist _
  | cons t ts ih =>
    unfold slotsFrom
    split_ifs with hsemicolon hend hheld
    · rw [List.flatMap_cons, Slot.places, List.append_assoc]
      exact (List.Sublist.refl held).append ((ih _ []).cons_cons t)
    · exact List.nil_sublist _
    · rw [List.flatMap_cons, List.flatMap_nil, List.append_nil]
      exact (List.Sublist.refl held).append ((List.nil_sublist ts).cons_cons t)
    · have h := ih start (held ++ [t])
      rwa [List.append_assoc] at h

theorem flatMap_places_slots (line : String) :
    ((slots line).flatMap Slot.places).Sublist (tokenize line).1 :=
  (flatMap_places_sublist 0 [] (significantTokens line)).trans List.filter_sublist

/-- The places of the slots begin one behind the other. -/
theorem places_pairwise (line : String) :
    ((slots line).flatMap Slot.places).Pairwise fun s t => s.span.start < t.span.start :=
  ((tokenize_pairwise line).imp And.left).sublist (flatMap_places_slots line)

section

variable {line : String} {s : Slot} {t : Token}

theorem mem_tokenize_of_mem_places (hs : s ∈ slots line) (ht : t ∈ s.places) :
    t ∈ (tokenize line).1 :=
  (flatMap_places_slots line).subset (List.mem_flatMap.2 ⟨s, hs, ht⟩)

theorem lt_terminator (hs : s ∈ slots line) (ht : t ∈ s.tokens) :
    t.span.start < s.terminator.span.start := by
  have hpairwise := (List.pairwise_flatMap.1 (places_pairwise line)).1 s hs
  exact (List.pairwise_append.1 hpairwise).2.2 t ht s.terminator (List.mem_singleton_self _)

theorem stop_le_terminator (hs : s ∈ slots line) (ht : t ∈ s.tokens) :
    t.span.stop ≤ s.terminator.span.start := by
  have hplaces := ((tokenize_pairwise line).imp And.right).sublist (flatMap_places_slots line)
  have hpairwise := (List.pairwise_flatMap.1 hplaces).1 s hs
  exact (List.pairwise_append.1 hpairwise).2.2 t ht s.terminator (List.mem_singleton_self _)

/-- No place of a slot is behind its terminator. -/
theorem start_le_terminator (hs : s ∈ slots line) (ht : t ∈ s.places) :
    t.span.start ≤ s.terminator.span.start := by
  rcases List.mem_append.1 ht with ht | ht
  · exact Nat.le_of_lt (lt_terminator hs ht)
  · rw [List.mem_singleton.1 ht]

/-- The tokens of a slot are not before its beginning. -/
theorem start_le_of_mem_slotsFrom {start : Nat} {held ts : List Token}
    (hstart : ∀ t ∈ held ++ ts, start ≤ t.span.start)
    (horder : ts.Pairwise fun s t => s.span.stop ≤ t.span.start)
    (hs : s ∈ slotsFrom start held ts) (ht : t ∈ s.tokens) : s.start ≤ t.span.start := by
  induction ts generalizing start held with
  | nil => cases hs
  | cons u ts ih =>
    obtain ⟨hu, horder⟩ := List.pairwise_cons.1 horder
    unfold slotsFrom at hs
    split_ifs at hs with hsemicolon hend hheld
    · rcases List.mem_cons.1 hs with rfl | hs
      · exact hstart t (List.mem_append_left _ ht)
      · exact ih hu horder hs
    · cases hs
    · rw [List.mem_singleton.1 hs] at ht ⊢
      exact hstart t (List.mem_append_left _ ht)
    · refine ih (fun v hv => hstart v ?_) horder hs
      rwa [List.append_assoc] at hv

theorem start_le_of_mem_tokens (hs : s ∈ slots line) (ht : t ∈ s.tokens) :
    s.start ≤ t.span.start := by
  refine start_le_of_mem_slotsFrom (fun t _ => Nat.zero_le _) ?_ hs ht
  exact ((tokenize_pairwise line).imp And.right).sublist List.filter_sublist

/-- A place belongs to one slot only. -/
theorem eq_of_holds {i j : Nat} {s s' : Slot} {span : Span} (hi : (slots line)[i]? = some s)
    (hj : (slots line)[j]? = some s') (hs : s.Holds span) (hs' : s'.Holds span) : i = j := by
  obtain ⟨t, ht, rfl⟩ := hs
  obtain ⟨t', ht', hspan⟩ := hs'
  have hpairwise := List.pairwise_iff_getElem.1 (List.pairwise_flatMap.1 (places_pairwise line)).2
  obtain ⟨hilt, rfl⟩ := List.getElem?_eq_some_iff.1 hi
  obtain ⟨hjlt, rfl⟩ := List.getElem?_eq_some_iff.1 hj
  rcases Nat.lt_trichotomy i j with hij | hij | hij
  · have hlt := hpairwise i j hilt hjlt hij t ht t' ht'
    rw [hspan] at hlt
    omega
  · exact hij
  · have hlt := hpairwise j i hjlt hilt hij t' ht' t ht
    rw [hspan] at hlt
    omega

/-- A lexical error that begins in the slot, at its terminator at the latest, begins before it. -/
theorem covers_of_le {e : Located LexicalError} (hs : s ∈ slots line)
    (he : e ∈ (tokenize line).2) (hstart : s.start ≤ e.span.start)
    (hstop : e.span.start ≤ s.terminator.span.start) : s.Covers e.span.start := by
  -- nothing is wrong with a terminator, and tokens that begin at one place are the same
  refine ⟨hstart, Nat.lt_of_le_of_ne hstop fun heq => ?_⟩
  obtain ⟨t, ht, hspan, htkind⟩ := exists_token_of_mem_errors he
  have hterminator : s.terminator ∈ s.places := List.mem_append_right _ (List.mem_singleton_self _)
  have hmem := mem_tokenize_of_mem_places hs hterminator
  rw [← hspan] at heq
  obtain rfl := eq_of_start_eq ht hmem heq
  rcases terminator_kind hs with h | h <;> rw [h] at htkind <;> simp at htkind

end

end ExprLang
