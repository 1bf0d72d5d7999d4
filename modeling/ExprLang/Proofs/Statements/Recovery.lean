import ExprLang.Proofs.Statements.Account

/-!
# Errors and slots

Every error of the reader belongs to one slot, a slot has at most one of them, and the statement of
a slot is missing exactly when the slot has an error, lexical or not.
-/

namespace ExprLang

instance (s : Slot) (span : Span) : Decidable (s.Holds span) :=
  inferInstanceAs (Decidable (∃ t ∈ s.places, t.span = span))

/-- The errors that stand in a slot. -/
def Slot.own (s : Slot) (errs : List (Located SyntaxError)) : List (Located SyntaxError) :=
  errs.filter fun e => s.Holds e.span

namespace Slot

variable {lexErrors : List (Located LexicalError)} {s s' : Slot} {entry : Option Expr}
  {errs : List (Located SyntaxError)}

/-- Slots without a place in common. -/
def Apart (s s' : Slot) : Prop := ∀ span, s.Holds span → ¬ s'.Holds span

theorem Reads.holds (h : s.Reads lexErrors entry errs) : ∀ e ∈ errs, s.Holds e.span := by
  intro e he
  cases h with
  | kept | dropped | silenced => cases he
  | reported e' _ ht _ =>
    rw [List.mem_singleton.1 he]
    exact ⟨_, ht, rfl⟩

theorem Reads.own (h : s.Reads lexErrors entry errs) : s.own errs = errs :=
  List.filter_eq_self.2 fun e he => decide_eq_true (h.holds e he)

theorem Reads.own_of_apart (h : s.Reads lexErrors entry errs) (hs : s.Apart s') :
    s'.own errs = [] :=
  List.filter_eq_nil_iff.2 fun e he => by
    rw [decide_eq_true_eq]
    exact hs e.span (h.holds e he)

theorem Reads.length_le_one (h : s.Reads lexErrors entry errs) : errs.length ≤ 1 := by
  cases h with
  | kept | dropped | silenced => exact Nat.zero_le 1
  | reported => exact Nat.le_refl 1

/-- No lexical error of the slot stands before a recorded error. -/
theorem Reads.not_le (h : s.Reads lexErrors entry errs) {e : Located SyntaxError} (he : e ∈ errs)
    {x : Located LexicalError} (hx : x ∈ lexErrors) (hstart : s.start ≤ x.span.start) :
    ¬ x.span.start ≤ e.span.start := by
  cases h with
  | kept | dropped | silenced => cases he
  | reported e' _ _ hlex =>
    rw [List.mem_singleton.1 he]
    exact fun hle => hlex ⟨x, hx, hstart, hle⟩

/-- An entry is missing because of a lexical error or because of a recorded one. -/
theorem Reads.eq_none_iff (h : s.Reads lexErrors entry errs)
    (hcovers : ∀ x ∈ lexErrors, ∀ t ∈ s.places, s.start ≤ x.span.start →
      x.span.start ≤ t.span.start → s.Covers x.span.start) :
    entry = none ↔ (∃ x ∈ lexErrors, s.Covers x.span.start) ∨ ∃ e, e ∈ errs := by
  cases h with
  | kept he hlex => simpa using hlex
  | dropped he hlex => simpa using hlex
  | silenced hno ht hlex =>
    obtain ⟨x, hx, hstart, hle⟩ := hlex
    exact ⟨fun _ => Or.inl ⟨x, hx, hcovers x hx _ ht hstart hle⟩, fun _ => rfl⟩
  | reported e hno ht hlex => exact ⟨fun _ => Or.inr ⟨_, List.mem_cons_self⟩, fun _ => rfl⟩

theorem Reads.written (h : s.Reads lexErrors entry errs) {e : Expr} (he : entry = some e) :
    Written e s.tokens := by
  cases h with
  | kept hstatement _ =>
    obtain rfl := Option.some.inj he
    exact hstatement.written
  | dropped | silenced | reported => cases he

theorem Reads.statementOf {e : Expr} (h : s.Reads lexErrors (some e) errs) :
    Parser.StatementOf e s.tokens := by
  cases h with
  | kept hstatement _ => exact hstatement

theorem mem_own {e : Located SyntaxError} : e ∈ s.own errs ↔ e ∈ errs ∧ s.Holds e.span := by
  rw [own, List.mem_filter, decide_eq_true_eq]

theorem own_append (s : Slot) (errs more : List (Located SyntaxError)) :
    s.own (errs ++ more) = s.own errs ++ s.own more := List.filter_append ..

end Slot

namespace Account

variable {lexErrors : List (Located LexicalError)} {slots : List Slot} {program : Program}
  {errs : List (Located SyntaxError)}

theorem length_eq (h : Account lexErrors slots program errs) : program.length = slots.length := by
  induction h with
  | nil => rfl
  | cons _ _ ih => rw [List.length_cons, List.length_cons, ih]

theorem exists_holds (h : Account lexErrors slots program errs) :
    ∀ e ∈ errs, ∃ s ∈ slots, s.Holds e.span := by
  intro e he
  induction h with
  | nil => cases he
  | cons hs _ ih =>
    rcases List.mem_append.1 he with he | he
    · exact ⟨_, List.mem_cons_self, hs.holds e he⟩
    · obtain ⟨s, hmem, hholds⟩ := ih he
      exact ⟨s, List.mem_cons_of_mem _ hmem, hholds⟩

/-- With slots that do not overlap, what is read of a slot are its entry and its own errors. -/
theorem reads (h : Account lexErrors slots program errs) (hapart : slots.Pairwise Slot.Apart)
    {i : Nat} {s : Slot} (hi : slots[i]? = some s) :
    ∃ entry, program[i]? = some entry ∧ s.Reads lexErrors entry (s.own errs) := by
  induction h generalizing i with
  | nil => cases hi
  | @cons head slots entry program errs more hs hslots ih =>
    obtain ⟨hhead, hapart⟩ := List.pairwise_cons.1 hapart
    cases i with
    | zero =>
      obtain rfl : head = s := by simpa using hi
      have hmore : head.own more = [] := List.filter_eq_nil_iff.2 fun e he => by
        obtain ⟨s, hmem, hholds⟩ := hslots.exists_holds e he
        rw [decide_eq_true_eq]
        exact fun hhold => hhead s hmem e.span hhold hholds
      refine ⟨entry, rfl, ?_⟩
      rwa [Slot.own_append, hs.own, hmore, List.append_nil]
    | succ i =>
      rw [List.getElem?_cons_succ] at hi ⊢
      obtain ⟨entry', hentry, hreads⟩ := ih hapart hi
      refine ⟨entry', hentry, ?_⟩
      rwa [Slot.own_append, hs.own_of_apart (hhead s (List.mem_of_getElem? hi)), List.nil_append]

end Account

theorem slots_apart (line : String) : (slots line).Pairwise Slot.Apart := by
  rw [List.pairwise_iff_getElem]
  intro i j hi hj hij span hholds hholds'
  have heq := eq_of_holds (List.getElem?_eq_getElem hi) (List.getElem?_eq_getElem hj) hholds hholds'
  omega

/-- What is read of a slot of a line. -/
theorem reads_parseProgram {line : String} {i : Nat} {s : Slot} (hi : (slots line)[i]? = some s) :
    ∃ entry, (parseProgram line).statements[i]? = some entry ∧
      s.Reads (parseProgram line).lexErrors entry (s.own (parseProgram line).errors) := by
  obtain ⟨haccount, hlex⟩ := account_parseProgram line
  rw [hlex]
  exact haccount.reads (slots_apart line) hi

/-- What is read belongs to a slot. -/
theorem exists_reads_of_mem_statements {line : String} {entry : Option Expr}
    (h : entry ∈ (parseProgram line).statements) :
    ∃ s ∈ slots line, ∃ errs, s.Reads (parseProgram line).lexErrors entry errs := by
  obtain ⟨i, hi⟩ := List.mem_iff_getElem?.1 h
  obtain ⟨hlt, -⟩ := List.getElem?_eq_some_iff.1 hi
  have hslot : i < (slots line).length := (account_parseProgram line).1.length_eq ▸ hlt
  obtain ⟨entry', hentry, hreads⟩ := reads_parseProgram (List.getElem?_eq_getElem hslot)
  obtain rfl : entry = entry' := Option.some.inj (hi.symm.trans hentry)
  exact ⟨_, List.getElem_mem hslot, _, hreads⟩

/-- An expression that is kept is the statement of a slot. -/
theorem exists_slot_of_mem_statements {line : String} {e : Expr}
    (h : some e ∈ (parseProgram line).statements) :
    ∃ s ∈ slots line, Parser.StatementOf e s.tokens := by
  obtain ⟨s, hs, errs, hreads⟩ := exists_reads_of_mem_statements h
  exact ⟨s, hs, hreads.statementOf⟩

/-- **Recovery accounts for every slot.** There is one entry for each slot; every error belongs to
one slot; and a slot has at most one error, none behind a lexical error of the slot. The entry of a
slot is missing exactly when a lexical error begins in the slot or an error stands in it; else it is
the expression that the tokens of the slot are. -/
theorem recovery_accounts (line : String) :
    (parseProgram line).statements.length = (slots line).length ∧
    (∀ e ∈ (parseProgram line).errors,
      ∃! i : Nat, ∃ s : Slot, (slots line)[i]? = some s ∧ s.Holds e.span) ∧
    ∀ (i : Nat) (s : Slot), (slots line)[i]? = some s →
      (parseProgram line).errors.countP (fun e => s.Holds e.span) ≤ 1 ∧
      (∀ e ∈ (parseProgram line).errors, s.Holds e.span → ∀ x ∈ (parseProgram line).lexErrors,
        s.Covers x.span.start → ¬ x.span.start ≤ e.span.start) ∧
      ((parseProgram line).statements[i]? = some none ↔
        (∃ x ∈ (parseProgram line).lexErrors, s.Covers x.span.start) ∨
          ∃ e ∈ (parseProgram line).errors, s.Holds e.span) ∧
      ∀ e, (parseProgram line).statements[i]? = some (some e) → Written e s.tokens := by
  obtain ⟨haccount, hlex⟩ := account_parseProgram line
  refine ⟨haccount.length_eq, fun e he => ?_, fun i s hi => ?_⟩
  · obtain ⟨s, hs, hholds⟩ := haccount.exists_holds e he
    obtain ⟨i, hi⟩ := List.mem_iff_getElem?.1 hs
    refine ⟨i, ⟨s, hi, hholds⟩, ?_⟩
    rintro j ⟨s', hj, hholds'⟩
    exact eq_of_holds hj hi hholds' hholds
  · obtain ⟨entry, hentry, hreads⟩ := reads_parseProgram hi
    have hs := List.mem_of_getElem? hi
    have hcovers : ∀ x ∈ (parseProgram line).lexErrors, ∀ t ∈ s.places,
        s.start ≤ x.span.start → x.span.start ≤ t.span.start → s.Covers x.span.start := by
      intro x hx t ht hstart hle
      exact covers_of_le hs (hlex ▸ hx) hstart (Nat.le_trans hle (start_le_terminator hs ht))
    refine ⟨?_, fun e he hholds x hx hcover => ?_, ?_, fun e he => ?_⟩
    · rw [List.countP_eq_length_filter]
      exact hreads.length_le_one
    · exact hreads.not_le (Slot.mem_own.2 ⟨he, hholds⟩) hx hcover.1
    · rw [hentry, Option.some_inj, hreads.eq_none_iff hcovers]
      simp only [Slot.mem_own]
    · rw [hentry, Option.some_inj] at he
      exact hreads.written he

end ExprLang
