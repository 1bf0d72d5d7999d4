import ExprLang.Proofs.Evaluation.Places
import ExprLang.Proofs.Session.Order
import ExprLang.Proofs.Statements.Joined

/-!
# One line of two texts

A line that is two texts with a semicolon between them is the same as two lines
(`interpret_joined`). The statements are read one by one, so there is nothing that the first text
leaves to the second one but the functions; and as places do not matter to evaluation, it makes no
difference that the second text is further to the right. The errors of reading are sorted by their
places, and so those of the first text stay in front.
-/

namespace ExprLang

/-! ### Errors of reading -/

/-- A cause of the first text, when a semicolon comes behind the text. -/
def Cause.closed : Cause → Cause
  | .syntactic e => .syntactic e.closed
  | c => c

/-- An error of reading of the first text, when a semicolon comes behind the text at an offset. -/
def Error.closed (offset : Nat) (x : Error) : Error :=
  match x.val with
  | .syntactic e => .ofSyntactic (closedError offset ⟨e, x.span⟩)
  | _ => x

theorem Error.val_closed (offset : Nat) (x : Error) : (x.closed offset).val = x.val.closed := by
  obtain ⟨c, span⟩ := x
  cases c <;> rfl

theorem start_closedError (offset : Nat) (e : Located SyntaxError) :
    (closedError offset e).span.start = e.span.start := by
  unfold closedError
  split
  · next h => rw [h]; rfl
  · rfl

theorem Error.start_closed (offset : Nat) (x : Error) :
    (x.closed offset).span.start = x.span.start := by
  obtain ⟨c, span⟩ := x
  cases c with
  | syntactic e => exact start_closedError offset ⟨e, span⟩
  | lexical | semantic | runtime => rfl

/-- A syntax error stands at a token. -/
theorem start_le_of_mem_syntaxErrors {line : String} {e : Located SyntaxError}
    (he : e ∈ (parseProgram line).errors) : e.span.start ≤ line.utf8ByteSize := by
  obtain ⟨s, hs, t, ht, hspan⟩ := (account_parseProgram line).1.exists_holds e he
  obtain ⟨hbefore, hpoint⟩ := start_of_mem_tokenize (mem_tokenize_of_mem_places hs ht)
  rw [← hspan]
  by_cases hend : t.kind = .endOfInput
  · rw [hpoint hend]
    exact Nat.le_refl _
  · exact (hbefore hend).le

/-- **The errors of reading two texts with a semicolon between them.** -/
theorem allErrors_joined {a : String} (b : String)
    (hclosed : ∀ e ∈ (tokenize a).2, e.val ≠ .unterminatedString)
    (hend : ∃ t, (significantTokens a).dropLast.getLast? = some t ∧ t.kind ≠ .symbol .semicolon) :
    (parseProgram (a ++ ";" ++ b)).allErrors =
      (parseProgram a).allErrors.map (Error.closed a.utf8ByteSize) ++
        (parseProgram b).allErrors.map (·.mapSpan (Span.shift (a.utf8ByteSize + 1))) := by
  have hlow : ∀ x ∈ (tokenize a).2.map Error.ofLexical ++
      ((parseProgram a).errors.map (closedError a.utf8ByteSize)).map Error.ofSyntactic,
      x.span.start ≤ a.utf8ByteSize := by
    simp only [List.forall_mem_append, List.forall_mem_map]
    refine ⟨fun x hx => start_le_of_mem_errors hx, fun x hx => ?_⟩
    show (closedError _ x).span.start ≤ _
    rw [start_closedError]
    exact start_le_of_mem_syntaxErrors hx
  have hhigh : ∀ x ∈ ((tokenize b).2.map
        (·.mapSpan (Span.shift (a.utf8ByteSize + 1)))).map Error.ofLexical ++
      ((parseProgram b).errors.map
        (·.mapSpan (Span.shift (a.utf8ByteSize + 1)))).map Error.ofSyntactic,
      a.utf8ByteSize < x.span.start := by
    simp only [List.forall_mem_append, List.forall_mem_map]
    exact ⟨fun x _ => Nat.le_add_left .., fun x _ => Nat.le_add_left ..⟩
  have hfirst : ∀ l : List Error, sortedBy (·.span.start) (l.map (Error.closed a.utf8ByteSize)) =
      (sortedBy (·.span.start) l).map (Error.closed a.utf8ByteSize) :=
    sortedBy_map fun x y => by rw [Error.start_closed, Error.start_closed]
  have hsecond : ∀ l : List Error,
      sortedBy (·.span.start) (l.map (·.mapSpan (Span.shift (a.utf8ByteSize + 1)))) =
        (sortedBy (·.span.start) l).map (·.mapSpan (Span.shift (a.utf8ByteSize + 1))) :=
    sortedBy_map fun x y => Nat.add_le_add_iff_right
  rw [allErrors_eq, allErrors_eq, allErrors_eq, (parseProgram_joined b hclosed hend).2,
    tokenize_joined b hclosed, List.map_append, List.map_append,
    sortedBy_append_append hlow hhigh, ← hfirst, ← hsecond]
  simp only [List.map_append, List.map_map]
  rfl

/-! ### Errors of evaluation -/

theorem Session.isOfReading_of_mem_outcomes {s : Session} (hs : s.registry.Plain) {line : String}
    {host : Host} {x : Error} (hx : x ∈ (s.outcomes line host).filterMap Outcome.error?) :
    x.val.isOfReading = false := by
  obtain ⟨before, entry, after, -, hentry, -, hplain, hx⟩ := Session.exists_of_mem_outcomes hs hx
  exact (evalStatement_raised hplain hentry hx).not_isOfReading

namespace Interpretation

/-- What reading found wrong with a line. -/
def readingCauses (i : Interpretation) : List Cause :=
  (i.errors.map Located.val).filter Cause.isOfReading

/-- What the evaluation of a line failed for. -/
def evaluationCauses (i : Interpretation) : List Cause :=
  (i.errors.map Located.val).filter fun c => !c.isOfReading

end Interpretation

namespace Session

variable {s : Session}

theorem results_interpret (s : Session) (line : String) (host : Host) :
    (s.interpret line host).1.results = (s.outcomes line host).map Outcome.result := rfl

theorem errors_interpret (s : Session) (line : String) (host : Host) :
    (s.interpret line host).1.errors =
      (parseProgram line).allErrors ++ (s.outcomes line host).filterMap Outcome.error? := rfl

variable (hs : s.registry.Plain) (line : String) (host : Host)

include hs

/-- What reading found wrong comes first, and then what the evaluation failed for. -/
theorem causes_interpret :
    (s.interpret line host).1.readingCauses = (parseProgram line).allErrors.map Located.val ∧
      (s.interpret line host).1.evaluationCauses =
        ((s.outcomes line host).filterMap Outcome.error?).map Located.val := by
  have hreading : ∀ c ∈ (parseProgram line).allErrors.map Located.val, c.isOfReading = true :=
    List.forall_mem_map.2 fun x hx => isOfReading_of_mem_allErrors hx
  have hevaluation : ∀ c ∈ ((s.outcomes line host).filterMap Outcome.error?).map Located.val,
      c.isOfReading = false :=
    List.forall_mem_map.2 fun x hx => isOfReading_of_mem_outcomes hs hx
  rw [Interpretation.readingCauses, Interpretation.evaluationCauses, errors_interpret,
    List.map_append, List.filter_append, List.filter_append]
  constructor
  · rw [List.filter_eq_self.2 hreading,
      List.filter_eq_nil_iff.2 fun c hc => by simp [hevaluation c hc], List.append_nil]
  · rw [List.filter_eq_nil_iff.2 fun c hc => by simp [hreading c hc],
      List.filter_eq_self.2 fun c hc => by simp [hevaluation c hc], List.nil_append]

end Session

/-- Outcomes of one form show the same values and are about the same causes. -/
theorem results_of_form {os os' : List Outcome} (h : os.map Outcome.form = os'.map Outcome.form) :
    os.map Outcome.result = os'.map Outcome.result ∧
      (os.filterMap Outcome.error?).map Located.val =
        (os'.filterMap Outcome.error?).map Located.val := by
  induction os generalizing os' with
  | nil =>
    obtain rfl := List.map_eq_nil_iff.1 h.symm
    exact ⟨rfl, rfl⟩
  | cons o os ih =>
    obtain ⟨o', os', rfl, ho, hos⟩ := List.map_eq_cons_iff.1 h.symm
    obtain ⟨hresults, hcauses⟩ := ih hos.symm
    cases o with
    | ok v =>
      cases o' with
      | ok w =>
        obtain rfl : w = v := Except.ok.inj ho
        exact ⟨congrArg (w :: ·) hresults, hcauses⟩
      | error => cases ho
    | error x =>
      cases o' with
      | ok => cases ho
      | error y => exact ⟨congrArg (Value.nothing :: ·) hresults,
          congrArg₂ List.cons (Except.error.inj ho).symm hcauses⟩

section

variable {a : String} (b : String)
  (hclosed : ∀ e ∈ (tokenize a).2, e.val ≠ .unterminatedString)
  (hend : ∃ t, (significantTokens a).dropLast.getLast? = some t ∧ t.kind ≠ .symbol .semicolon)

include hclosed hend

/-- The outcomes of the first text are followed by those of the second one, but for places. -/
theorem Session.outcomes_joined (s : Session) (host : Host) : ∃ os : List Outcome,
    s.outcomes (a ++ ";" ++ b) host = s.outcomes a host ++ os ∧
      os.map Outcome.form = ((s.interpret a host).2.outcomes b host).map Outcome.form ∧
      (s.interpret (a ++ ";" ++ b) host).2.registry.form =
        ((s.interpret a host).2.interpret b host).2.registry.form := by
  let ceiling := host.ceiling s.maxDepth
  let moved := (parseProgram b).statements.map
    (Option.map (·.mapSpans (Span.shift (a.utf8ByteSize + 1))))
  have hmoved : moved.map (Option.map Expr.form) =
      (parseProgram b).statements.map (Option.map Expr.form) := by
    rw [List.map_map]
    refine List.map_congr_left fun entry _ => ?_
    cases entry with
    | none => rfl
    | some e => exact congrArg some (e.form_mapSpans _)
  have hline : evalStatements ceiling s.registry (parseProgram (a ++ ";" ++ b)).statements =
      evalStatements ceiling s.registry ((parseProgram a).statements ++ moved) :=
    congrArg _ (parseProgram_joined b hclosed hend).1
  rw [evalStatements_append] at hline
  obtain ⟨houtcomes, hregistry⟩ := evalStatements_congr ceiling
    (r := (s.interpret a host).2.registry) rfl hmoved
  exact ⟨_, congrArg Prod.fst hline, houtcomes,
    (congrArg (Registry.form ∘ Prod.snd) hline).trans hregistry⟩

end

/-- **One line of two texts is the same as two lines**, in every session. The results are those of
the two texts one after the other, and so are the causes of errors, of reading and of evaluation,
except that reading finds the semicolon where it found the end of the first text. The functions
afterwards are the same but for the places in their bodies. All three lines are evaluated on the
same host: with another limit on calls a statement may end in another way. -/
theorem interpret_joined (maxDepth : Nat) (lines : List String) (hosts : Nat → Host) (a b : String)
    (host : Host)
    (hclosed : ∀ e ∈ (tokenize a).2, e.val ≠ .unterminatedString)
    (hend : ∃ t, (significantTokens a).dropLast.getLast? = some t ∧ t.kind ≠ .symbol .semicolon) :
    let s := ((Session.new maxDepth).interpretAll lines hosts).2
    let one := s.interpret (a ++ ";" ++ b) host
    let first := s.interpret a host
    let second := first.2.interpret b host
    one.1.results = first.1.results ++ second.1.results ∧
      one.1.readingCauses = first.1.readingCauses.map Cause.closed ++ second.1.readingCauses ∧
      one.1.evaluationCauses = first.1.evaluationCauses ++ second.1.evaluationCauses ∧
      one.2.registry.form = second.2.registry.form := by
  intro s one first second
  have hs : s.registry.Plain := Session.plain_interpretAll maxDepth lines hosts
  have hfirst : first.2.registry.Plain := (Session.interpret_registry hs a host).2
  obtain ⟨os, houtcomes, hform, hregistry⟩ := s.outcomes_joined b hclosed hend host
  obtain ⟨hresults, hcauses⟩ := results_of_form hform
  obtain ⟨hreading, hevaluation⟩ := Session.causes_interpret hs (a ++ ";" ++ b) host
  obtain ⟨hreading₁, hevaluation₁⟩ := Session.causes_interpret hs a host
  obtain ⟨hreading₂, hevaluation₂⟩ := Session.causes_interpret hfirst b host
  refine ⟨?_, ?_, ?_, hregistry⟩
  · rw [Session.results_interpret, Session.results_interpret, Session.results_interpret, houtcomes,
      List.map_append, hresults]
  · rw [hreading, hreading₁, hreading₂, allErrors_joined b hclosed hend, List.map_append,
      List.map_map, List.map_map, List.map_map]
    refine congrArg₂ _ (List.map_congr_left fun x _ => x.val_closed _) rfl
  · rw [hevaluation, hevaluation₁, hevaluation₂, houtcomes, List.filterMap_append,
      List.map_append, hcauses]

/-- A declaration, a call that the text breaks off, and a call in the second text. -/
theorem interpret_joined_call :
    (Session.new.interpret "function f(x) => x & y; f(;f(true)").1.readingCauses =
        [.syntactic (.unexpected (.symbol .semicolon) .literal)] ∧
      (Session.new.interpret "function f(x) => x & y; f(;f(true)").1.evaluationCauses =
        [.runtime (.undeclaredVariable "y")] := by
  obtain ⟨-, hreading, hevaluation, -⟩ :=
    interpret_joined _ [] (fun _ => .thread) "function f(x) => x & y; f(" "f(true)" .thread
      (by decide +kernel)
      ⟨⟨⟨.symbol .leftParen, "(", none⟩, ⟨25, 26⟩⟩, by decide +kernel, by decide⟩
  exact ⟨hreading.trans (by decide +kernel), hevaluation.trans (by decide +kernel)⟩

end ExprLang
