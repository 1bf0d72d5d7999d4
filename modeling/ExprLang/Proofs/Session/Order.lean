import ExprLang.Proofs.Session.Results

/-!
# The errors of a line, in order

* `sortedBy`: sorting by a key.
* No two errors of reading begin at the same place (`nodup_starts`): an error of the reader at a
  token stands behind all lexical errors of its slot, or it is not recorded. So the errors of
  reading, in the order of their places, are in strict order (`allErrors_pairwise`).
* `Evaluated`: what comes of the statements of a line one after the other, with one result for every
  statement and one error for every statement that fails.

`interpret_reports` says what a line reports: the errors of reading in order, and then those of its
statements; and nothing of the lines before it.
-/

namespace ExprLang

/-! ### Sorting by a key -/

/-- A list in the order of keys; equal keys keep their order. -/
def sortedBy {α : Type} (key : α → Nat) (l : List α) : List α :=
  l.mergeSort fun a b => key a ≤ key b

/-- Puts an element behind those of smaller key and before the others. -/
def insertBy {α : Type} (key : α → Nat) (a : α) (l : List α) : List α :=
  (l.filter fun b => key b < key a) ++ a :: l.filter fun b => key a ≤ key b

section

variable {α : Type} {key : α → Nat}

theorem insertBy_append_of_le {a : α} {l m : List α} (h : ∀ b ∈ m, key a ≤ key b) :
    insertBy key a (l ++ m) = insertBy key a l ++ m := by
  have hnone : (m.filter fun b => key b < key a) = [] :=
    List.filter_eq_nil_iff.2 fun b hb => by simpa using h b hb
  have hall : (m.filter fun b => key a ≤ key b) = m :=
    List.filter_eq_self.2 fun b hb => decide_eq_true (h b hb)
  rw [insertBy, insertBy, List.filter_append, List.filter_append, hnone, hall, List.append_nil,
    List.append_assoc, List.cons_append]

theorem insertBy_append_of_lt {a : α} {l m : List α} (h : ∀ b ∈ l, key b < key a) :
    insertBy key a (l ++ m) = l ++ insertBy key a m := by
  have hall : (l.filter fun b => key b < key a) = l :=
    List.filter_eq_self.2 fun b hb => decide_eq_true (h b hb)
  have hnone : (l.filter fun b => key a ≤ key b) = [] :=
    List.filter_eq_nil_iff.2 fun b hb => by simpa using h b hb
  rw [insertBy, insertBy, List.filter_append, List.filter_append, hnone, hall, List.nil_append,
    List.append_assoc]

theorem mem_sortedBy {a : α} {l : List α} : a ∈ sortedBy key l ↔ a ∈ l := List.mem_mergeSort

theorem sortedBy_nil : sortedBy key [] = [] := List.mergeSort_nil

theorem sortedBy_order (key : α → Nat) :
    (∀ a b c : α, decide (key a ≤ key b) → decide (key b ≤ key c) → decide (key a ≤ key c)) ∧
      ∀ a b : α, decide (key a ≤ key b) || decide (key b ≤ key a) := by
  simp only [decide_eq_true_eq, Bool.or_eq_true]
  exact ⟨fun _ _ _ => Nat.le_trans, fun _ _ => Nat.le_total _ _⟩

theorem pairwise_sortedBy (key : α → Nat) (l : List α) :
    (sortedBy key l).Pairwise fun a b => key a ≤ key b := by
  obtain ⟨htrans, htotal⟩ := sortedBy_order key
  exact (List.pairwise_mergeSort htrans htotal l).imp of_decide_eq_true

/-- Elements of distinct keys are sorted strictly. -/
theorem pairwise_sortedBy_lt {l : List α} (h : (l.map key).Nodup) :
    (sortedBy key l).Pairwise fun a b => key a < key b := by
  have hperm : ((sortedBy key l).map key).Perm (l.map key) :=
    (List.mergeSort_perm l fun a b => key a ≤ key b).map key
  have hdistinct : (sortedBy key l).Pairwise fun a b => key a ≠ key b :=
    List.pairwise_map.1 (hperm.nodup_iff.2 h)
  refine ((pairwise_sortedBy key l).and hdistinct).imp ?_
  intro a b hab
  exact Nat.lt_of_le_of_ne hab.1 hab.2

/-- What is sorted stays as it is. -/
theorem sortedBy_of_pairwise {l : List α} (h : l.Pairwise fun a b => key a ≤ key b) :
    sortedBy key l = l :=
  List.mergeSort_of_pairwise (h.imp decide_eq_true)

/-- The order of equal keys is kept, so the first element comes before those of its key. -/
theorem sortedBy_cons (a : α) (l : List α) :
    sortedBy key (a :: l) = insertBy key a (sortedBy key l) := by
  obtain ⟨htrans, htotal⟩ := sortedBy_order key
  obtain ⟨before, after, hcons, hl, hbefore⟩ := List.mergeSort_cons htrans htotal a l
  have hbefore : ∀ b ∈ before, key b < key a := fun b hb => by simpa using hbefore b hb
  have hsorted := List.pairwise_mergeSort htrans htotal (a :: l)
  rw [hcons, List.pairwise_append, List.pairwise_cons] at hsorted
  have hafter : ∀ b ∈ after, key a ≤ key b := fun b hb => of_decide_eq_true (hsorted.2.1.1 b hb)
  rw [sortedBy, sortedBy, hcons, hl, insertBy_append_of_lt hbefore,
    ← List.nil_append after, insertBy_append_of_le hafter]
  rfl

/-- What is not beyond a bound is sorted by itself, and comes first. -/
theorem sortedBy_eq_append (n : Nat) (l : List α) : sortedBy key l =
    sortedBy key (l.filter fun a => key a ≤ n) ++ sortedBy key (l.filter fun a => n < key a) := by
  induction l with
  | nil => simp [sortedBy_nil]
  | cons a l ih =>
    rw [sortedBy_cons, ih, List.filter_cons, List.filter_cons]
    by_cases ha : key a ≤ n
    · rw [if_pos (decide_eq_true ha), if_neg (by simpa using ha), sortedBy_cons]
      refine insertBy_append_of_le fun b hb => ?_
      have hb : n < key b := of_decide_eq_true (List.mem_filter.1 (mem_sortedBy.1 hb)).2
      exact ha.trans hb.le
    · rw [if_neg (by simpa using ha), if_pos (by simpa using ha), sortedBy_cons]
      refine insertBy_append_of_lt fun b hb => ?_
      have hb : key b ≤ n := of_decide_eq_true (List.mem_filter.1 (mem_sortedBy.1 hb)).2
      exact hb.trans_lt (Nat.lt_of_not_le ha)

theorem sortedBy_append_append {n : Nat} {low high low' high' : List α}
    (hlow : ∀ a ∈ low ++ low', key a ≤ n) (hhigh : ∀ a ∈ high ++ high', n < key a) :
    sortedBy key (low ++ high ++ (low' ++ high')) =
      sortedBy key (low ++ low') ++ sortedBy key (high ++ high') := by
  rw [List.forall_mem_append] at hlow hhigh
  rw [sortedBy_eq_append n]
  have hkept : ∀ {l : List α}, (∀ a ∈ l, key a ≤ n) →
      (l.filter fun a => key a ≤ n) = l ∧ (l.filter fun a => n < key a) = [] := fun h =>
    ⟨List.filter_eq_self.2 fun a ha => decide_eq_true (h a ha),
      List.filter_eq_nil_iff.2 fun a ha => by simpa using h a ha⟩
  have hmoved : ∀ {l : List α}, (∀ a ∈ l, n < key a) →
      (l.filter fun a => key a ≤ n) = [] ∧ (l.filter fun a => n < key a) = l := fun h =>
    ⟨List.filter_eq_nil_iff.2 fun a ha => by simpa using h a ha,
      List.filter_eq_self.2 fun a ha => decide_eq_true (h a ha)⟩
  simp only [List.filter_append, hkept hlow.1, hkept hlow.2, hmoved hhigh.1, hmoved hhigh.2,
    List.append_nil, List.nil_append]

/-- Sorting looks at the order of the keys only. -/
theorem sortedBy_map {β : Type} {key' : β → Nat} {g : α → β}
    (h : ∀ a b, key' (g a) ≤ key' (g b) ↔ key a ≤ key b) (l : List α) :
    sortedBy key' (l.map g) = (sortedBy key l).map g :=
  (List.map_mergeSort fun a _ b _ => by simp only [h]).symm

end

/-! ### Errors of reading -/

theorem allErrors_eq (line : String) : (parseProgram line).allErrors =
    sortedBy (·.span.start)
      ((tokenize line).2.map .ofLexical ++ (parseProgram line).errors.map .ofSyntactic) := by
  rw [← (account_parseProgram line).2]
  rfl

/-- Lexical errors begin one behind the other. -/
theorem lexErrors_pairwise (line : String) :
    (tokenize line).2.Pairwise fun d e => d.span.start < e.span.start := by
  have horder := tokenize_pairwise line
  rw [tokenize_eq] at horder ⊢
  refine (List.pairwise_append.1 horder).1.filterMap Token.flaw? ?_
  intro s t hst d hd e he
  rw [span_of_flaw? hd, span_of_flaw? he]
  exact hst.1

theorem Slot.Reads.spans_sublist {lexErrors : List (Located LexicalError)} {s : Slot}
    {entry : Option Expr} {errs : List (Located SyntaxError)} (h : s.Reads lexErrors entry errs) :
    (errs.map Located.span).Sublist (s.places.map Token.span) := by
  cases h with
  | kept | dropped | silenced => exact List.nil_sublist _
  | reported e _ ht _ => exact List.singleton_sublist.2 (List.mem_map_of_mem ht)

/-- Syntax errors stand at places of the slots, in their order. -/
theorem Account.spans_sublist {lexErrors : List (Located LexicalError)} {slots : List Slot}
    {program : Program} {errs : List (Located SyntaxError)}
    (h : Account lexErrors slots program errs) :
    (errs.map Located.span).Sublist ((slots.flatMap Slot.places).map Token.span) := by
  induction h with
  | nil => exact List.nil_sublist _
  | cons hs _ ih =>
    rw [List.map_append, List.flatMap_cons, List.map_append]
    exact hs.spans_sublist.append ih

/-- Syntax errors begin one behind the other. -/
theorem syntaxErrors_pairwise (line : String) :
    (parseProgram line).errors.Pairwise fun d e => d.span.start < e.span.start := by
  have hplaces : (((slots line).flatMap Slot.places).map Token.span).Pairwise
      fun s t => s.start < t.start := List.pairwise_map.2 (places_pairwise line)
  have hspans := hplaces.sublist (account_parseProgram line).1.spans_sublist
  rwa [List.pairwise_map] at hspans

/-- No syntax error is recorded at a token that has a lexical error. -/
theorem start_ne_of_mem_errors {line : String} {x : Located LexicalError}
    (hx : x ∈ (tokenize line).2) {e : Located SyntaxError} (he : e ∈ (parseProgram line).errors) :
    x.span.start ≠ e.span.start := by
  intro heq
  obtain ⟨haccount, hlex⟩ := account_parseProgram line
  obtain ⟨s, hs, t, ht, hspan⟩ := haccount.exists_holds e he
  obtain ⟨u, hu, huspan, hukind⟩ := exists_token_of_mem_errors hx
  obtain rfl : u = t :=
    eq_of_start_eq hu (mem_tokenize_of_mem_places hs ht) (by rw [huspan, heq, hspan])
  -- nothing is wrong with a terminator, so the token is one of the slot
  have hmem : u ∈ s.tokens := by
    rcases List.mem_append.1 ht with h | h
    · exact h
    · rw [List.mem_singleton.1 h] at hukind
      rcases terminator_kind hs with hkind | hkind <;> simp [hkind] at hukind
  have hstart : s.start ≤ x.span.start := huspan ▸ start_le_of_mem_tokens hs hmem
  obtain ⟨i, hi⟩ := List.mem_iff_getElem?.1 hs
  obtain ⟨entry, -, hreads⟩ := reads_parseProgram hi
  exact hreads.not_le (Slot.mem_own.2 ⟨he, u, ht, hspan⟩) (hlex ▸ hx) hstart heq.le

/-- **No two errors of reading begin at the same place.** -/
theorem nodup_starts (line : String) :
    (((tokenize line).2.map Error.ofLexical ++ (parseProgram line).errors.map Error.ofSyntactic).map
      fun x => x.span.start).Nodup := by
  rw [List.map_append, List.map_map, List.map_map, List.nodup_append]
  refine ⟨?_, ?_, ?_⟩
  · exact List.pairwise_map.2 ((lexErrors_pairwise line).imp Nat.ne_of_lt)
  · exact List.pairwise_map.2 ((syntaxErrors_pairwise line).imp Nat.ne_of_lt)
  · intro m hm n hn
    obtain ⟨x, hx, rfl⟩ := List.mem_map.1 hm
    obtain ⟨e, he, rfl⟩ := List.mem_map.1 hn
    exact start_ne_of_mem_errors hx he

theorem allErrors_pairwise (line : String) :
    (parseProgram line).allErrors.Pairwise fun x y => x.span.start < y.span.start := by
  rw [allErrors_eq]
  exact pairwise_sortedBy_lt (nodup_starts line)

/-! ### Errors of evaluation -/

/-- What comes of statements: the results, the errors, and the functions afterwards. Every statement
has one result; it is nothing for a statement that was given up, and for one that fails, which alone
has an error. -/
inductive Evaluated (maxDepth : Nat) :
    Registry → Program → List Value → List Error → Registry → Prop
  | nil {r : Registry} : Evaluated maxDepth r [] [] [] r
  | dropped {r r' : Registry} {program : Program} {results : List Value} {errors : List Error}
      (h : Evaluated maxDepth r program results errors r') :
      Evaluated maxDepth r (none :: program) (.nothing :: results) errors r'
  | finished {r r' : Registry} {e : Expr} {v : Value} {s : Evaluator} {program : Program}
      {results : List Value} {errors : List Error}
      (he : Evaluator.eval { registry := r, maxDepth } .empty e = (.ok v, s))
      (h : Evaluated maxDepth s.registry program results errors r') :
      Evaluated maxDepth r (some e :: program) (v :: results) errors r'
  | failed {r r' : Registry} {e : Expr} {x : Error} {s : Evaluator} {program : Program}
      {results : List Value} {errors : List Error}
      (he : Evaluator.eval { registry := r, maxDepth } .empty e = (.error x, s))
      (hx : x.val.isOfReading = false)
      (h : Evaluated maxDepth s.registry program results errors r') :
      Evaluated maxDepth r (some e :: program) (.nothing :: results) (x :: errors) r'

theorem Evaluated.length_eq {maxDepth : Nat} {r r' : Registry} {program : Program}
    {results : List Value} {errors : List Error}
    (h : Evaluated maxDepth r program results errors r') : results.length = program.length := by
  induction h with
  | nil => rfl
  | dropped _ ih | finished _ _ ih | failed _ _ _ ih =>
    rw [List.length_cons, List.length_cons, ih]

/-- **What comes of the statements of a program.** -/
theorem evaluated_evalStatements (maxDepth : Nat) {r : Registry} (hr : r.Plain) {program : Program}
    (hprogram : ∀ entry ∈ program, IsEntry entry) :
    Evaluated maxDepth r program ((evalStatements maxDepth r program).1.map Outcome.result)
      ((evalStatements maxDepth r program).1.filterMap Outcome.error?)
      (evalStatements maxDepth r program).2 := by
  induction program generalizing r with
  | nil => exact .nil
  | cons entry program ih =>
    obtain ⟨hentry, hprogram⟩ := List.forall_mem_cons.1 hprogram
    have hrest := ih (plain_evalStatement maxDepth hr hentry) hprogram
    rw [evalStatements_cons]
    cases entry with
    | none => exact .dropped hrest
    | some e =>
      cases heval : Evaluator.eval { registry := r, maxDepth } .empty e with
      | mk outcome s =>
        have hstatement : evalStatement maxDepth r (some e) = (outcome, s.registry) := by
          rw [evalStatement, heval]
        rw [hstatement] at hrest ⊢
        cases outcome with
        | ok v => exact .finished heval hrest
        | error x =>
          have hraised := evalStatement_raised hr hentry (congrArg Prod.fst hstatement)
          exact .failed heval hraised.not_isOfReading hrest

/-- **What a line reports**, in every session. First come the errors of reading, each lexical and
each syntax error once, in the strict order of their places; then come the errors of the statements
that failed, in the order of the statements. Every statement of the line has one result. The
session keeps these errors, and none of the lines before. -/
theorem interpret_reports (maxDepth : Nat) (lines : List String) (hosts : Nat → Host)
    (line : String) (host : Host) :
    let s := ((Session.new maxDepth).interpretAll lines hosts).2
    let parsed := parseProgram line
    let i := (s.interpret line host).1
    let after := (s.interpret line host).2
    (∃ early late, i.errors = early ++ late ∧
      early.Perm ((tokenize line).2.map .ofLexical ++ parsed.errors.map .ofSyntactic) ∧
      early.Pairwise (fun x y => x.span.start < y.span.start) ∧
      Evaluated (host.ceiling s.maxDepth) s.registry parsed.statements i.results late
        after.registry) ∧
    i.results.length = parsed.statements.length ∧
    after.diagnostics = i.errors ∧
    ∀ old, Session.interpret { s with diagnostics := old } line host = s.interpret line host := by
  intro s parsed i after
  have hevaluated : Evaluated (host.ceiling s.maxDepth) s.registry parsed.statements i.results
      ((s.outcomes line host).filterMap Outcome.error?) after.registry :=
    evaluated_evalStatements _ (Session.plain_interpretAll maxDepth lines hosts)
      isEntry_of_mem_statements
  refine ⟨⟨parsed.allErrors, _, rfl, ?_, allErrors_pairwise line, hevaluated⟩,
    hevaluated.length_eq, rfl, fun old => rfl⟩
  rw [show parsed.allErrors = _ from allErrors_eq line]
  exact List.mergeSort_perm _ _

end ExprLang
