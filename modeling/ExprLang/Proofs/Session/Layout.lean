import ExprLang.Proofs.Session.Joined

/-!
# Layout does not matter

Two lines of the same words (`SameWords`) have the same tokens but for the places of the tokens and
the layout between them. If nothing is wrong with their characters, a session that interprets the
one shows what a session that interprets the other shows: the values of the statements and the
causes of all errors.

* `Pairing.relaid`: tokens of one lexeme correspond, wherever they stand. So the slots of the two
  lines are read alike (`alike_slots`), and the errors of reading keep their order, since they are
  recorded in the order of their places.
* `Session.Alike`: sessions whose functions differ in places only. What they show of lines that were
  laid out anew is the same, and they stay alike (`interpret_relaid`, `interpretAll_relaid`).
-/

namespace ExprLang

/-- Lines of which the tokens agree in kind, text and value, layout and stray characters apart. -/
def SameWords (a b : String) : Prop :=
  (significantTokens a).map Token.toLexeme = (significantTokens b).map Token.toLexeme

instance (a b : String) : Decidable (SameWords a b) :=
  inferInstanceAs (Decidable ((significantTokens a).map Token.toLexeme = _))

/-- A line that was laid out anew: it is another line of the same words, and nothing is wrong with
the characters of either; or it is the same line. -/
def Relaid (a b : String) : Prop :=
  a = b ∨ (tokenize a).2 = [] ∧ (tokenize b).2 = [] ∧ SameWords a b

/-! ### Reading -/

namespace Parser.Pairing

/-- Tokens of one lexeme correspond, wherever they stand. -/
def relaid : Pairing where
  left := fun _ => ⟨0, 0⟩
  right := fun _ => ⟨0, 0⟩
  rel := fun t t' => t'.toLexeme = t.toLexeme
  union := fun _ _ => rfl
  ends := fun h => congrArg (fun l : Lexeme => !endsStatement l.kind) h
  lexeme := fun h _ => h
  span := fun _ _ => rfl

theorem relaid_errors {es es' : List (Located SyntaxError)}
    (h : List.Forall₂ relaid.Errors es es') : es.map Located.val = es'.map Located.val := by
  induction h with
  | nil => rfl
  | cons he _ ih =>
    obtain ⟨t, t', hrel, -, -, hval, hval'⟩ := he
    have hkind : t'.kind = t.kind := congrArg Lexeme.kind hrel
    rw [List.map_cons, List.map_cons, ih, hval', hkind, hval]

end Parser.Pairing

open Parser.Pairing

/-- Tokens of the same lexemes have slots of the same lexemes. -/
theorem slotsFrom_relaid {ts ts' held held' : List Token} (hts : List.Forall₂ relaid.rel ts ts')
    (hheld : List.Forall₂ relaid.rel held held') (start start' : Nat) :
    List.Forall₂ (fun s s' => List.Forall₂ relaid.rel s.places s'.places)
      (slotsFrom start held ts) (slotsFrom start' held' ts') := by
  induction hts generalizing held held' start start' with
  | nil => exact .nil
  | @cons t t' ts ts' ht hts ih =>
    have hkind : t'.kind = t.kind := congrArg Lexeme.kind ht
    have hempty : held'.isEmpty = held.isEmpty := by cases hheld <;> rfl
    have hplaces : List.Forall₂ relaid.rel (held ++ [t]) (held' ++ [t']) :=
      List.rel_append hheld (.cons ht .nil)
    rw [slotsFrom, slotsFrom, hkind, hempty]
    split_ifs with hsemicolon hend hnone
    · exact .cons hplaces (ih .nil _ _)
    · exact .nil
    · exact .cons hplaces .nil
    · exact ih hplaces start start'

section

variable {a b : String}

/-- The slots of two lines of the same words are alike. -/
theorem alike_slots (h : SameWords a b) :
    List.Forall₂ (Slot.Alike relaid [] []) (slots a) (slots b) := by
  have htokens : List.Forall₂ relaid.rel (significantTokens a) (significantTokens b) := by
    have hlexemes : List.Forall₂ Eq ((significantTokens a).map Token.toLexeme)
        ((significantTokens b).map Token.toLexeme) := by
      rw [h]
      exact List.forall₂_same.2 fun _ _ => rfl
    rw [List.forall₂_map_left_iff, List.forall₂_map_right_iff] at hlexemes
    exact hlexemes.imp fun _ _ => Eq.symm
  have hplaces := slotsFrom_relaid htokens .nil 0 0
  have hwhole := (List.forall₂_and_left _ _).2 ⟨fun s hs => whole_of_mem_slots hs, hplaces⟩
  have hwhole' := (List.forall₂_and_left _ _).2 ⟨fun s hs => whole_of_mem_slots hs, hwhole.flip⟩
  refine hwhole'.flip.imp ?_
  rintro s s' ⟨hs', hs, hrel⟩
  exact ⟨hs, hs', hrel, fun _ _ _ => rfl, rfl⟩

/-- Slots that are alike hold the same statements, with the same errors, but for places. -/
theorem read_alike {ss ss' : List Slot} (h : List.Forall₂ (Slot.Alike relaid [] []) ss ss') :
    (ss.map (Slot.entry [])).map (Option.map Expr.form) =
        (ss'.map (Slot.entry [])).map (Option.map Expr.form) ∧
      (ss.flatMap (Slot.errors [])).map Located.val =
        (ss'.flatMap (Slot.errors [])).map Located.val := by
  induction h with
  | nil => exact ⟨rfl, rfl⟩
  | @cons s s' ss ss' hs _ ih =>
    obtain ⟨hentries, herrors⟩ := ih
    have hentry : (s.entry []).map Expr.form = (s'.entry []).map Expr.form := hs.entry
    simp only [List.map_cons, List.flatMap_cons, List.map_append]
    exact ⟨congrArg₂ _ hentry hentries, congrArg₂ _ (relaid_errors hs.errors) herrors⟩

/-- Without lexical errors, the errors of reading are the syntax errors as they were recorded. -/
theorem allErrors_of_clean (ha : (tokenize a).2 = []) :
    (parseProgram a).allErrors = (parseProgram a).errors.map .ofSyntactic := by
  have hsorted : ((parseProgram a).errors.map Error.ofSyntactic).Pairwise
      fun x y => x.span.start ≤ y.span.start :=
    List.pairwise_map.2 ((syntaxErrors_pairwise a).imp Nat.le_of_lt)
  rw [allErrors_eq, ha, List.map_nil, List.nil_append, sortedBy_of_pairwise hsorted]

/-- **Lines that were laid out anew are read alike.** -/
theorem parseProgram_relaid (h : Relaid a b) :
    (parseProgram a).statements.map (Option.map Expr.form) =
        (parseProgram b).statements.map (Option.map Expr.form) ∧
      (parseProgram a).allErrors.map Located.val = (parseProgram b).allErrors.map Located.val := by
  rcases h with rfl | ⟨ha, hb, hwords⟩
  · exact ⟨rfl, rfl⟩
  · obtain ⟨hentries, herrors⟩ := read_alike (alike_slots hwords)
    have hcauses : ∀ es : List (Located SyntaxError),
        (es.map Error.ofSyntactic).map Located.val = (es.map Located.val).map Cause.syntactic := by
      intro es
      rw [List.map_map, List.map_map]
      rfl
    constructor
    · rw [parseProgram_statements, parseProgram_statements, ha, hb]
      exact hentries
    · rw [allErrors_of_clean ha, allErrors_of_clean hb, hcauses, hcauses, parseProgram_errors,
        parseProgram_errors, ha, hb, herrors]

end

/-! ### Interpreting -/

/-- What a line shows, places apart: the results, and the causes of the errors. -/
def Interpretation.shown (i : Interpretation) : List Value × List Cause :=
  (i.results, i.errors.map Located.val)

/-- Sessions with the same limit, of which the functions differ in places only. -/
structure Session.Alike (s s' : Session) : Prop where
  maxDepth : s.maxDepth = s'.maxDepth
  form : s.registry.form = s'.registry.form

namespace Session.Alike

variable {s s' : Session}

theorem refl (s : Session) : Alike s s := ⟨rfl, rfl⟩

/-- **One line**: alike sessions show the same of it, and stay alike. -/
theorem interpret_relaid (h : Alike s s') {a b : String} (hab : Relaid a b) (host : Host) :
    (s.interpret a host).1.shown = (s'.interpret b host).1.shown ∧
      Alike (s.interpret a host).2 (s'.interpret b host).2 := by
  obtain ⟨hstatements, herrors⟩ := parseProgram_relaid hab
  have hceiling : host.ceiling s.maxDepth = host.ceiling s'.maxDepth := congrArg _ h.maxDepth
  obtain ⟨houtcomes, hform⟩ := evalStatements_congr (host.ceiling s.maxDepth) h.form hstatements
  rw [hceiling] at houtcomes hform
  have hline : s.outcomes a host = _ :=
    congrArg (fun m => (evalStatements m s.registry _).1) hceiling
  have hafter : (s.interpret a host).2.registry = _ :=
    congrArg (fun m => (evalStatements m s.registry (parseProgram a).statements).2) hceiling
  obtain ⟨hresults, hcauses⟩ := results_of_form houtcomes
  refine ⟨?_, h.maxDepth, ?_⟩
  · rw [Interpretation.shown, Interpretation.shown, results_interpret, results_interpret,
      errors_interpret, errors_interpret, List.map_append, List.map_append, herrors, hline]
    exact congrArg₂ Prod.mk hresults (congrArg _ hcauses)
  · rw [hafter]
    exact hform

/-- **All lines**: alike sessions show the same of every line. -/
theorem interpretAll_relaid (h : Alike s s') {lines lines' : List String}
    (hlines : List.Forall₂ Relaid lines lines') (hosts : Nat → Host) :
    (s.interpretAll lines hosts).1.map Interpretation.shown =
        (s'.interpretAll lines' hosts).1.map Interpretation.shown ∧
      Alike (s.interpretAll lines hosts).2 (s'.interpretAll lines' hosts).2 := by
  induction hlines generalizing s s' hosts with
  | nil => exact ⟨rfl, h⟩
  | cons hab _ ih =>
    obtain ⟨hshown, halike⟩ := h.interpret_relaid hab (hosts 0)
    obtain ⟨hrest, hend⟩ := ih halike fun n => hosts (n + 1)
    exact ⟨congrArg₂ List.cons hshown hrest, hend⟩

end Session.Alike

/-- **Layout does not matter**, in any session. Two lines of the same words, without lexical errors,
have the same results and the same causes of errors, in the same order, and leave the same functions
but for the places in their bodies. What is shown of the lines that come after is the same too,
whatever the layout of those. Lines that are compared are evaluated on the same host. -/
theorem layout_irrelevant (maxDepth : Nat) (lines : List String) (hosts : Nat → Host)
    {a b : String} (host : Host) (ha : (tokenize a).2 = []) (hb : (tokenize b).2 = [])
    (hwords : SameWords a b) :
    let s := ((Session.new maxDepth).interpretAll lines hosts).2
    let i := s.interpret a host
    let j := s.interpret b host
    i.1.results = j.1.results ∧
      i.1.errors.map Located.val = j.1.errors.map Located.val ∧
      i.2.registry.form = j.2.registry.form ∧
      ∀ more more' later, List.Forall₂ Relaid more more' →
        (i.2.interpretAll more later).1.map Interpretation.shown =
          (j.2.interpretAll more' later).1.map Interpretation.shown := by
  intro s i j
  obtain ⟨hshown, halike⟩ :=
    (Session.Alike.refl s).interpret_relaid (Or.inr ⟨ha, hb, hwords⟩) host
  obtain ⟨hresults, hcauses⟩ := Prod.mk.inj hshown
  refine ⟨hresults, hcauses, halike.form, ?_⟩
  intro more more' later hmore
  exact (halike.interpretAll_relaid hmore later).1

/-- A call of a function whose body has an undeclared variable, written on one line and on two, and
another call after it. -/
theorem layout_irrelevant_call :
    SameWords "f(true)" " f\t( true\n)" ∧
      (((Session.new defaultMaxDepth).interpretAll ["function f(x) => x & y"]).2.interpret
          " f\t( true\n)").1.errors.map Located.val = [.runtime (.undeclaredVariable "y")] ∧
      (((((Session.new defaultMaxDepth).interpretAll ["function f(x) => x & y"]).2.interpret
          " f\t( true\n)").2.interpretAll ["f( false )"]).1.map Interpretation.shown).map Prod.snd =
        [[.runtime (.undeclaredVariable "y")]] := by
  have hwords : SameWords "f(true)" " f\t( true\n)" := by decide +kernel
  have hnext : Relaid "f(false)" "f( false )" :=
    Or.inr ⟨by decide +kernel, by decide +kernel, by decide +kernel⟩
  obtain ⟨-, hcauses, -, hlater⟩ := layout_irrelevant defaultMaxDepth ["function f(x) => x & y"]
    (fun _ => .thread) .thread (by decide +kernel) (by decide +kernel) hwords
  refine ⟨hwords, ?_, ?_⟩
  · rw [← hcauses]
    decide +kernel
  · rw [← hlater ["f(false)"] ["f( false )"] _ (.cons hnext .nil)]
    decide +kernel

end ExprLang
