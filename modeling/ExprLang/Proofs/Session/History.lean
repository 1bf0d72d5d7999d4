import ExprLang.Session
import ExprLang.Proofs.Evaluation.Plain
import ExprLang.Proofs.Statements.Recovery
import Mathlib.Data.List.Nodup

/-!
# The functions of a session

The functions of a session are the built-in ones and, behind them, those of the declarations that
its lines had, in order, of every signature the first one. Nothing but the declaration of a new
signature touches them: `evalStatement_registry` says so of one statement,
`evalStatements_registry` of a line, and `interpretAll_registry` of all lines. The limit on calls
has no part in it, nor has the host of a line.
-/

namespace ExprLang

namespace Registry

variable {r : Registry} {f : Function} {s : Signature}

/-- The functions of which the signature is not known, of every signature the first one. -/
def fresh : List Signature → List Function → List Function
  | _, [] => []
  | known, f :: fs =>
    if f.signature ∈ known then fresh known fs else f :: fresh (f.signature :: known) fs

theorem fresh_congr {known known' : List Signature} (h : ∀ s, s ∈ known ↔ s ∈ known')
    (fs : List Function) : fresh known fs = fresh known' fs := by
  induction fs generalizing known known' with
  | nil => rfl
  | cons f fs ih =>
    have hcons : ∀ s, s ∈ f.signature :: known ↔ s ∈ f.signature :: known' := by simp [h]
    rw [fresh, fresh, ih h, ih hcons]
    simp only [h]

theorem contains_iff : r.contains s = true ↔ s ∈ r.signatures := by
  simp [contains, get?_eq_find?, signatures, List.find?_isSome]

theorem add_of_mem (h : f.signature ∈ r.signatures) : r.add f = r :=
  if_pos (contains_iff.2 h)

theorem entries_add_of_not_mem (h : f.signature ∉ r.signatures) :
    (r.add f).entries = r.entries ++ [(f.signature, f)] := by
  rw [add, if_neg (mt contains_iff.1 h)]

theorem functions_add_of_not_mem (h : f.signature ∉ r.signatures) :
    (r.add f).functions = r.functions ++ [f] := by
  rw [functions, entries_add_of_not_mem h, List.map_append]
  rfl

theorem signatures_add_of_not_mem (h : f.signature ∉ r.signatures) :
    (r.add f).signatures = r.signatures ++ [f.signature] := by
  rw [signatures, functions_add_of_not_mem h, List.map_append]
  rfl

theorem declare_of_mem (h : f.signature ∈ r.signatures) (span : Span) : r.declare f span =
    .error ⟨.semantic (.duplicateFunction f.signature.name f.signature.arity), span⟩ :=
  if_pos (contains_iff.2 h)

theorem declare_of_not_mem (h : f.signature ∉ r.signatures) (span : Span) :
    r.declare f span = .ok (r.add f) :=
  if_neg (mt contains_iff.1 h)

/-- Functions that are added one after the other come behind those at hand. -/
theorem functions_foldl_add (r : Registry) (fs : List Function) :
    (fs.foldl add r).functions = r.functions ++ fresh r.signatures fs := by
  induction fs generalizing r with
  | nil => exact (List.append_nil _).symm
  | cons f fs ih =>
    rw [List.foldl_cons, ih, fresh]
    split
    · next h => rw [add_of_mem h]
    · next h =>
      have hsignatures : ∀ s, s ∈ (r.add f).signatures ↔ s ∈ f.signature :: r.signatures := by
        simp [signatures_add_of_not_mem h, or_comm]
      rw [functions_add_of_not_mem h, fresh_congr hsignatures, List.append_assoc,
        List.singleton_append]

theorem nodup_add (h : r.signatures.Nodup) (f : Function) : (r.add f).signatures.Nodup := by
  by_cases hf : f.signature ∈ r.signatures
  · rwa [add_of_mem hf]
  · rw [signatures_add_of_not_mem hf]
    refine List.Nodup.append h (List.nodup_singleton f.signature) ?_
    rwa [List.disjoint_singleton]

theorem nodup_foldl_add (h : r.signatures.Nodup) (fs : List Function) :
    (fs.foldl add r).signatures.Nodup := by
  induction fs generalizing r with
  | nil => exact h
  | cons f fs ih => exact ih (nodup_add h f)

theorem map_fst_entries (r : Registry) : r.entries.map Prod.fst = r.signatures := by
  rw [entries_eq, List.map_map]
  rfl

/-- With one function of a signature, the signature leads to what stands behind it. -/
theorem get?_eq_some_iff (h : r.signatures.Nodup) : r.get? s = some f ↔ (s, f) ∈ r.entries := by
  rw [entries_eq, List.mem_map]
  constructor
  · intro hget
    obtain ⟨hf, rfl⟩ := get?_eq_some hget
    exact ⟨f, hf, rfl⟩
  · rintro ⟨g, hg, heq⟩
    cases heq
    obtain ⟨f, hf⟩ := Option.isSome_iff_exists.1 (contains_iff.2 (List.mem_map_of_mem hg))
    obtain ⟨hmem, hsignature⟩ := get?_eq_some hf
    rw [hf, List.inj_on_of_nodup_map h hmem hg hsignature]

theorem functions_builtins : builtins.functions = Builtin.all.map .builtin := rfl

theorem plain_builtins : builtins.Plain := by
  intro name params body h
  obtain ⟨b, -, hb⟩ := List.mem_map.1 (functions_builtins ▸ h)
  cases hb

theorem Plain.add (h : r.Plain) (hf : ∀ name params body, f = .declared name params body →
    body.isPlain) : (r.add f).Plain := by
  intro name params body hbody
  rcases mem_functions_add hbody with hbody | hbody
  · exact h name params body hbody
  · exact hf name params body hbody.symm

end Registry

/-! ### One statement -/

/-- The function that a statement declares. -/
def declared? : Option Expr → Option Function
  | some (.declaration name params body _) =>
    some (.declared name.val (params.map Located.val) body)
  | _ => none

/-- A statement of the grammar, or none. -/
def IsEntry (entry : Option Expr) : Prop := ∀ e, entry = some e → e.isStatement

section

variable (maxDepth : Nat) {r : Registry} {entry : Option Expr} {f : Function}

theorem nestingLimit_pos : 0 < nestingLimit maxDepth := by
  have hword : 0 < wordMax := by decide
  have hcap : 0 < (maxStack - baseStack) / levelStack := by decide
  simp only [nestingLimit, saturate, nestingPerCall]
  omega

theorem evalStatement_some (r : Registry) (e : Expr) :
    evalStatement maxDepth r (some e) =
      ((eval (nestingLimit maxDepth) .empty e { registry := r, maxDepth }).1,
        (eval (nestingLimit maxDepth) .empty e { registry := r, maxDepth }).2.registry) := rfl

/-- There is a level of nesting for every statement, so a declaration is never cut off. -/
theorem evalStatement_declaration (r : Registry) (hentry : declared? entry = some f) :
    (f.signature ∈ r.signatures → ∃ span, evalStatement maxDepth r entry =
      (.error ⟨.semantic (.duplicateFunction f.signature.name f.signature.arity), span⟩, r)) ∧
    (f.signature ∉ r.signatures → evalStatement maxDepth r entry = (.ok .nothing, r.add f)) := by
  unfold declared? at hentry
  split at hentry
  · next name params body span =>
    obtain rfl := Option.some.inj hentry
    have hfits : ({ registry := r, maxDepth } : Evaluator).Fits (nestingLimit maxDepth)
        Peak.idle.inExpr := ⟨nestingLimit_pos maxDepth, Nat.zero_le _⟩
    refine ⟨fun h => ?_, fun h => ?_⟩
    · have hrun : Runs r .empty (.declaration name params body span) _ r _ :=
        .declarationError (Registry.declare_of_mem h name.span)
      rw [evalStatement_some, (hrun.agrees _).within _ rfl hfits]
      exact ⟨_, rfl⟩
    · have hrun : Runs r .empty (.declaration name params body span) _ _ _ :=
        .declaration (Registry.declare_of_not_mem h name.span)
      rw [evalStatement_some, (hrun.agrees _).within _ rfl hfits]
  · cases hentry

/-- A statement that is no declaration is plain. -/
theorem isPlain_of_declared?_eq_none {e : Expr} (he : e.isStatement)
    (h : declared? (some e) = none) : e.isPlain := by
  cases e with
  | declaration => cases h
  | _ => exact Expr.isPlain_of_isCanonical he

theorem evalStatement_settled (hr : r.Plain) {e : Expr} (he : e.isStatement)
    (h : declared? (some e) = none) : (evalStatement maxDepth r (some e)).2 = r ∧
      Settled (Undeclared r .empty e.free) (· ≠ .nothing) (evalStatement maxDepth r (some e)).1 :=
  eval_settles hr _ .empty e (isPlain_of_declared?_eq_none he h) Scope.defined_empty
    { registry := r, maxDepth } rfl

/-- **A statement adds the function that it declares**, and changes nothing else. -/
theorem evalStatement_registry (hr : r.Plain) (hentry : IsEntry entry) :
    (evalStatement maxDepth r entry).2 = (declared? entry).elim r r.add := by
  cases hdeclared : declared? entry with
  | some f =>
    obtain ⟨hold, hnew⟩ := evalStatement_declaration maxDepth r hdeclared
    by_cases hf : f.signature ∈ r.signatures
    · obtain ⟨span, hspan⟩ := hold hf
      rw [hspan]
      exact (Registry.add_of_mem hf).symm
    · rw [hnew hf]
      rfl
  | none =>
    cases entry with
    | none => rfl
    | some e => exact (evalStatement_settled maxDepth hr (hentry e rfl) hdeclared).1

/-- An error leaves the functions as they are. -/
theorem evalStatement_registry_of_error (hr : r.Plain) (hentry : IsEntry entry) {x : Error}
    (hx : (evalStatement maxDepth r entry).1 = .error x) :
    (evalStatement maxDepth r entry).2 = r := by
  rw [evalStatement_registry maxDepth hr hentry]
  cases hdeclared : declared? entry with
  | none => rfl
  | some f =>
    by_cases hf : f.signature ∈ r.signatures
    · exact Registry.add_of_mem hf
    · rw [(evalStatement_declaration maxDepth r hdeclared).2 hf] at hx
      cases hx

theorem plain_evalStatement (hr : r.Plain) (hentry : IsEntry entry) :
    (evalStatement maxDepth r entry).2.Plain := by
  rw [evalStatement_registry maxDepth hr hentry]
  cases hdeclared : declared? entry with
  | none => exact hr
  | some f =>
    refine hr.add fun name params body hf => ?_
    unfold declared? at hdeclared
    split at hdeclared
    · obtain rfl := Option.some.inj hdeclared
      cases hf
      exact Expr.isPlain_of_isCanonical (hentry _ rfl)
    · cases hdeclared

end

/-! ### All statements of a line, and all lines -/

section

variable (maxDepth : Nat) {r : Registry} {program : Program}

theorem evalStatements_cons (entry : Option Expr) (program : Program) :
    evalStatements maxDepth r (entry :: program) =
      ((evalStatement maxDepth r entry).1 ::
          (evalStatements maxDepth (evalStatement maxDepth r entry).2 program).1,
        (evalStatements maxDepth (evalStatement maxDepth r entry).2 program).2) := rfl

theorem evalStatements_append (p q : Program) : evalStatements maxDepth r (p ++ q) =
    ((evalStatements maxDepth r p).1 ++
        (evalStatements maxDepth (evalStatements maxDepth r p).2 q).1,
      (evalStatements maxDepth (evalStatements maxDepth r p).2 q).2) := by
  induction p generalizing r with
  | nil => rfl
  | cons entry p ih => rw [List.cons_append, evalStatements_cons, ih, evalStatements_cons]; rfl

/-- An outcome is that of a statement, with the functions that the statements before it left. -/
theorem exists_of_mem_evalStatements {o : Outcome} (h : o ∈ (evalStatements maxDepth r program).1) :
    ∃ before entry after, program = before ++ entry :: after ∧
      (evalStatement maxDepth (evalStatements maxDepth r before).2 entry).1 = o := by
  induction program generalizing r with
  | nil => cases h
  | cons entry program ih =>
    rcases List.mem_cons.1 h with rfl | h
    · exact ⟨[], entry, program, rfl, rfl⟩
    · obtain ⟨before, e, after, rfl, ho⟩ := ih h
      exact ⟨entry :: before, e, after, rfl, ho⟩

theorem evalStatements_registry (hr : r.Plain) (hprogram : ∀ entry ∈ program, IsEntry entry) :
    (evalStatements maxDepth r program).2 =
        (program.filterMap declared?).foldl Registry.add r ∧
      (evalStatements maxDepth r program).2.Plain := by
  induction program generalizing r with
  | nil => exact ⟨rfl, hr⟩
  | cons entry program ih =>
    obtain ⟨hentry, hprogram⟩ := List.forall_mem_cons.1 hprogram
    obtain ⟨hregistry, hplain⟩ :=
      ih (plain_evalStatement maxDepth hr hentry) hprogram
    rw [evalStatements_cons]
    refine ⟨?_, hplain⟩
    rw [hregistry, evalStatement_registry maxDepth hr hentry, List.filterMap_cons]
    cases declared? entry <;> rfl

end

theorem isEntry_of_mem_statements {line : String} :
    ∀ entry ∈ (parseProgram line).statements, IsEntry entry := by
  rintro _ h e rfl
  obtain ⟨s, -, he⟩ := exists_slot_of_mem_statements h
  exact he.statement

/-- Before each statement of a line the functions are those at hand and those that the statements
before it declare. -/
theorem evalStatements_before (maxDepth : Nat) {r : Registry} (hr : r.Plain) {line : String}
    {before after : Program} {entry : Option Expr}
    (hline : (parseProgram line).statements = before ++ entry :: after) :
    IsEntry entry ∧
      (evalStatements maxDepth r before).2 = (before.filterMap declared?).foldl Registry.add r ∧
      (evalStatements maxDepth r before).2.Plain := by
  have hentries : ∀ e ∈ before ++ entry :: after, IsEntry e :=
    fun e he => isEntry_of_mem_statements e (hline ▸ he)
  exact ⟨hentries entry (by simp),
    evalStatements_registry maxDepth hr fun e he => hentries e (List.mem_append_left _ he)⟩

/-- The functions that lines declare, in order. -/
def declarations (lines : List String) : List Function :=
  lines.flatMap fun line => (parseProgram line).statements.filterMap declared?

namespace Session

variable {s : Session}

theorem interpret_registry (hs : s.registry.Plain) (line : String) (host : Host) :
    (s.interpret line host).2.registry = (declarations [line]).foldl Registry.add s.registry ∧
      (s.interpret line host).2.registry.Plain := by
  rw [declarations, List.flatMap_singleton]
  exact evalStatements_registry _ hs isEntry_of_mem_statements

theorem interpretAll_registry (hs : s.registry.Plain) (lines : List String) (hosts : Nat → Host) :
    (s.interpretAll lines hosts).2.registry = (declarations lines).foldl Registry.add s.registry ∧
      (s.interpretAll lines hosts).2.registry.Plain := by
  induction lines generalizing s hosts with
  | nil => exact ⟨rfl, hs⟩
  | cons line lines ih =>
    obtain ⟨hline, hplain⟩ := interpret_registry hs line (hosts 0)
    obtain ⟨hlines, hplain⟩ := ih hplain fun n => hosts (n + 1)
    refine ⟨?_, hplain⟩
    rw [declarations, List.flatMap_singleton] at hline
    rw [declarations, List.flatMap_cons, List.foldl_append, ← hline]
    exact hlines

/-- The bodies of the functions of a session are plain. -/
theorem plain_interpretAll (maxDepth : Nat) (lines : List String) (hosts : Nat → Host) :
    ((new maxDepth).interpretAll lines hosts).2.registry.Plain :=
  (interpretAll_registry Registry.plain_builtins lines hosts).2

end Session

/-- **The functions of a session** are the four built-in ones and then those that its lines
declared, of every signature the first one, each behind its own signature: name and number of
parameters. Signatures are distinct and lead to what stands behind them. Of the statements of a
further line only the declaration of a new signature changes the functions, and adds its own behind
the others; a statement with an error never does. -/
theorem registry_history (maxDepth : Nat) (lines : List String) (hosts : Nat → Host) :
    let s := ((Session.new maxDepth).interpretAll lines hosts).2
    let known : List Signature := [⟨"sin", 1⟩, ⟨"cos", 1⟩, ⟨"tan", 1⟩, ⟨"print", 1⟩]
    s.registry.entries =
        [(⟨"sin", 1⟩, .builtin .sin), (⟨"cos", 1⟩, .builtin .cos), (⟨"tan", 1⟩, .builtin .tan),
          (⟨"print", 1⟩, .builtin .print)] ++
        (Registry.fresh known (declarations lines)).map (fun f => (f.signature, f)) ∧
      s.registry.signatures = s.registry.entries.map Prod.fst ∧
      (s.registry.entries.map Prod.fst).Nodup ∧
      (∀ key f, s.registry.get? key = some f ↔ (key, f) ∈ s.registry.entries) ∧
      (∀ key f, (key, f) ∈ s.registry.entries → key = f.signature ∧
        (∀ b, f = .builtin b → key = ⟨b.name, 1⟩) ∧
        ∀ name params body, f = .declared name params body → key = ⟨name, params.length⟩) ∧
      ∀ (host : Host) line before entry after,
        (parseProgram line).statements = before ++ entry :: after →
        let ceiling := host.ceiling s.maxDepth
        let r := (evalStatements ceiling s.registry before).2
        let result := evalStatement ceiling r entry
        (declared? entry = none → result.2 = r) ∧
          (∀ f, declared? entry = some f → f.signature ∈ r.signatures →
            (∃ span, result.1 = .error
              ⟨.semantic (.duplicateFunction f.signature.name f.signature.arity), span⟩) ∧
            result.2 = r) ∧
          (∀ f, declared? entry = some f → f.signature ∉ r.signatures →
            result.1 = .ok .nothing ∧ result.2.entries = r.entries ++ [(f.signature, f)]) ∧
          ∀ x, result.1 = .error x → result.2 = r := by
  intro s known
  obtain ⟨hregistry, hplain⟩ : s.registry = (declarations lines).foldl Registry.add .builtins ∧
      s.registry.Plain := Session.interpretAll_registry Registry.plain_builtins lines hosts
  have hnodup : s.registry.signatures.Nodup := by
    rw [hregistry]
    exact Registry.nodup_foldl_add (by decide) _
  have hkeys := s.registry.map_fst_entries
  refine ⟨?_, hkeys.symm, hkeys ▸ hnodup, fun key f => Registry.get?_eq_some_iff hnodup,
    fun key f hf => ?_, ?_⟩
  · rw [Registry.entries_eq, hregistry, Registry.functions_foldl_add, List.map_append]
    rfl
  · have hkey := s.registry.keyed key f hf
    refine ⟨hkey, fun b hb => ?_, fun name params body hdeclared => ?_⟩
    · rw [hkey, hb]
      rfl
    · rw [hkey, hdeclared]
      rfl
  · intro host line before entry after hline ceiling r result
    obtain ⟨hentry, -, hr⟩ := evalStatements_before ceiling hplain hline
    refine ⟨fun hnone => ?_, fun f hf hmem => ?_, fun f hf hnew => ?_, fun x hx => ?_⟩
    · show (evalStatement ceiling r entry).2 = r
      rw [evalStatement_registry _ hr hentry, hnone]
      rfl
    · obtain ⟨span, hspan⟩ := (evalStatement_declaration ceiling r hf).1 hmem
      exact ⟨⟨span, congrArg Prod.fst hspan⟩, congrArg Prod.snd hspan⟩
    · have hresult := (evalStatement_declaration ceiling r hf).2 hnew
      refine ⟨congrArg Prod.fst hresult, ?_⟩
      rw [← Registry.entries_add_of_not_mem hnew]
      exact congrArg (Registry.entries ∘ Prod.snd) hresult
    · exact evalStatement_registry_of_error _ hr hentry hx

end ExprLang
