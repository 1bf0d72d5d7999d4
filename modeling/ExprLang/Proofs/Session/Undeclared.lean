import ExprLang.Proofs.Lexing.Places
import ExprLang.Proofs.Session.Results

/-!
# Where an undeclared variable stands

A variable that is found undeclared stands in the line that is interpreted, or in the body of a
function that an earlier line declared (`undeclared_places`). In the line it is shown at its name.
In a body its span belongs to the earlier line, and whether it is shown depends on nothing but
whether the line at hand has such a span: `undeclared_shown_elsewhere` is a line that is shown with
a label at letters that have nothing to do with the variable.
-/

namespace ExprLang

/-! ### Free variables are tokens -/

mutual

/-- The free variables of an expression are names among its tokens. -/
theorem Written.free_subset : ∀ {e : Expr} {ts : List Token}, Written e ts →
    e.free ⊆ ts.map Token.toName
  | _, _, .literal _ => List.nil_subset _
  | _, _, .var _ => List.Subset.refl _
  | _, _, .unary _ he => List.subset_cons_of_subset _ he.free_subset
  | _, _, .binary he _ hd => by
    rw [Expr.free, List.map_append, List.map_cons]
    have he := he.free_subset
    have hd := hd.free_subset
    grind
  | _, _, .group _ he _ => by
    rw [Expr.free, List.map_cons, List.map_append]
    have he := he.free_subset
    grind
  | _, _, .conditional _ _ hc _ hd _ he => by
    rw [Expr.free, List.map_cons, List.map_cons, List.map_append, List.map_cons, List.map_append,
      List.map_cons]
    have hc := hc.free_subset
    have hd := hd.free_subset
    have he := he.free_subset
    grind
  | _, _, .letIn _ hbindings _ he => by
    rw [Expr.free, List.map_cons, List.map_append, List.map_cons]
    have hbindings := hbindings.free_subset
    have he := he.free_subset
    grind
  | _, _, .declaration _ _ _ _ _ _ _ => List.nil_subset _
  | _, _, .callNone _ _ _ => List.nil_subset _
  | _, _, .call _ _ hargs _ => by
    rw [Expr.free, List.map_cons, List.map_cons, List.map_append]
    have hargs := hargs.free_subset
    grind

theorem WrittenBindings.free_subset : ∀ {bindings : List (Name × Expr)} {ts : List Token},
    WrittenBindings bindings ts → Expr.freeBindings bindings ⊆ ts.map Token.toName
  | _, _, .one _ _ he => by
    rw [Expr.freeBindings, Expr.freeBindings, List.append_nil]
    exact List.subset_cons_of_subset _ (List.subset_cons_of_subset _ he.free_subset)
  | _, _, .cons _ _ he _ hbindings => by
    rw [Expr.freeBindings, List.map_cons, List.map_cons, List.map_append, List.map_cons]
    have he := he.free_subset
    have hbindings := hbindings.free_subset
    grind

theorem WrittenArgs.free_subset : ∀ {args : List Expr} {ts : List Token}, WrittenArgs args ts →
    Expr.freeArgs args ⊆ ts.map Token.toName
  | _, _, .one he => by
    rw [Expr.freeArgs, Expr.freeArgs, List.append_nil]
    exact he.free_subset
  | _, _, .cons he _ hargs => by
    rw [Expr.freeArgs, List.map_append, List.map_cons]
    have he := he.free_subset
    have hargs := hargs.free_subset
    grind

end

section

variable {line : String} {e : Expr} {x : Name}

theorem shows_of_mem_free {ts : List Token} (h : Written e ts)
    (hts : ∀ t ∈ ts, t ∈ (tokenize line).1) (hx : x ∈ e.free) : x.span.Shows x.val line := by
  obtain ⟨t, ht, rfl⟩ := List.mem_map.1 (h.free_subset hx)
  exact shows_of_mem_tokenize (hts t ht)

theorem exists_written_of_mem_statements (h : some e ∈ (parseProgram line).statements) :
    ∃ ts, Written e ts ∧ ∀ t ∈ ts, t ∈ (tokenize line).1 := by
  obtain ⟨s, hs, he⟩ := exists_slot_of_mem_statements h
  exact ⟨s.tokens, he.written,
    fun t ht => mem_tokenize_of_mem_places hs (List.mem_append_left _ ht)⟩

/-- A free variable of a statement shows its name. -/
theorem shows_of_mem_statements (h : some e ∈ (parseProgram line).statements) (hx : x ∈ e.free) :
    x.span.Shows x.val line := by
  obtain ⟨ts, hts, hmem⟩ := exists_written_of_mem_statements h
  exact shows_of_mem_free hts hmem hx

/-- So does a free variable of the body of a declaration. -/
theorem shows_of_mem_body {name : Name} {params : List Name} {body : Expr} {span : Span}
    (h : some (.declaration name params body span) ∈ (parseProgram line).statements)
    (hx : x ∈ body.free) : x.span.Shows x.val line := by
  obtain ⟨ts, hts, hmem⟩ := exists_written_of_mem_statements h
  cases hts with
  | declaration _ _ _ _ _ _ hbody =>
    exact shows_of_mem_free hbody (fun t ht => hmem t (by simp [ht])) hx

end

/-! ### Functions come from declarations -/

namespace Registry

theorem mem_of_mem_fresh {known : List Signature} {f : Function} {fs : List Function}
    (h : f ∈ fresh known fs) : f ∈ fs := by
  induction fs generalizing known with
  | nil => exact h
  | cons g fs ih =>
    unfold fresh at h
    split_ifs at h
    · exact List.mem_cons_of_mem g (ih h)
    · rcases List.mem_cons.1 h with rfl | h
      · exact List.mem_cons_self
      · exact List.mem_cons_of_mem g (ih h)

end Registry

/-- A statement that declares a function. -/
theorem exists_of_declared?_eq {entry : Option Expr} {declared : String} {params : List String}
    {body : Expr} (h : declared? entry = some (.declared declared params body)) :
    ∃ name names span, entry = some (.declaration name names body span) ∧
      params = names.map Located.val := by
  unfold declared? at h
  split at h
  · cases h
    exact ⟨_, _, _, rfl, rfl⟩
  · cases h

/-- Added functions are the only new ones. -/
theorem Registry.mem_functions_foldl_add {r : Registry} {fs : List Function} {f : Function}
    (h : f ∈ (fs.foldl add r).functions) : f ∈ r.functions ∨ f ∈ fs := by
  rw [functions_foldl_add] at h
  exact (List.mem_append.1 h).imp_right mem_of_mem_fresh

/-- A body of a declared function is that of a declaration on one of the lines so far. -/
theorem exists_declaration_of_leaks {lines : List String} {fs : List Function} {x : Name}
    (hfs : fs ⊆ declarations lines) (hx : (fs.foldl Registry.add .builtins).Leaks x) :
    ∃ l ∈ lines, ∃ name params body span,
      some (.declaration name params body span) ∈ (parseProgram l).statements ∧
      x ∈ body.free ∧ x.val ∉ params.map Located.val := by
  obtain ⟨declared, params, body, hmem, hfree, hparams⟩ := hx
  rcases Registry.mem_functions_foldl_add hmem with hmem | hmem
  · rw [Registry.functions_builtins] at hmem
    obtain ⟨b, -, hb⟩ := List.mem_map.1 hmem
    cases hb
  · obtain ⟨l, hl, hmem⟩ := List.mem_flatMap.1 (hfs hmem)
    obtain ⟨entry, hentry, hdeclared⟩ := List.mem_filterMap.1 hmem
    obtain ⟨name, names, span, rfl, rfl⟩ := exists_of_declared?_eq hdeclared
    exact ⟨l, hl, name, names, body, span, hentry, hfree, hparams⟩

/-! ### Undeclared variables -/

/-- **Where an undeclared variable stands.** When a line reports one, the line is shown with the
label at the name; or the variable is free in the body of a function of an earlier line, its name
stands in that line at the span, and the span says nothing about the line at hand. In either case
the span ends in the line that it was written in, so with lines shorter than `2 ^ 32` bytes both of
its ends are words of 32 bits. -/
theorem undeclared_places (maxDepth : Nat) (lines : List String) (hosts : Nat → Host)
    (line : String) (host : Host) (name : String) (span : Span)
    (h : ⟨.runtime (.undeclaredVariable name), span⟩ ∈
      (((Session.new maxDepth).interpretAll lines hosts).2.interpret line host).1.errors) :
    ((Diagnostic.ofError ⟨.runtime (.undeclaredVariable name), span⟩ line).excerpt? =
        some ⟨line, Diagnostic.lineName, some "not found in this scope", span⟩ ∧
      span.bytes line = name.toUTF8 ∧ span.stop ≤ line.utf8ByteSize) ∨
    ∃ l ∈ lines, span.bytes l = name.toUTF8 ∧ span.stop ≤ l.utf8ByteSize ∧ ∃ f params body place,
      some (.declaration f params body place) ∈ (parseProgram l).statements ∧
      ⟨name, span⟩ ∈ body.free ∧ name ∉ params.map Located.val := by
  obtain ⟨hregistry, hplain⟩ :=
    Session.interpretAll_registry (s := .new maxDepth) Registry.plain_builtins lines hosts
  generalize ((Session.new maxDepth).interpretAll lines hosts).2 = s at *
  have hshown : span.Shows name line →
      (Diagnostic.ofError ⟨.runtime (.undeclaredVariable name), span⟩ line).excerpt? =
        some ⟨line, Diagnostic.lineName, some "not found in this scope", span⟩ ∧
      span.bytes line = name.toUTF8 ∧ span.stop ≤ line.utf8ByteSize := fun hshows =>
    ⟨Diagnostic.excerpt?_ofError hshows.fits, hshows.bytes, hshows.stop_le⟩
  rcases List.mem_append.1 h with h | h
  · exact absurd (isOfReading_of_mem_allErrors h) Bool.false_ne_true
  obtain ⟨before, entry, after, hline, hentry, hbefore, hplain, herror⟩ :=
    Session.exists_of_mem_outcomes hplain h
  have hbefore : (evalStatements (host.ceiling s.maxDepth) s.registry before).2 =
      (declarations lines ++ before.filterMap declared?).foldl Registry.add .builtins := by
    rw [hbefore, hregistry, List.foldl_append]
    rfl
  rcases evalStatement_raised hplain hentry herror with ⟨e, rfl, hx⟩ | hleaks
  · have hmem : some e ∈ (parseProgram line).statements := by simp [hline]
    exact Or.inl (hshown (shows_of_mem_statements hmem hx))
  · rw [hbefore] at hleaks
    have hfs : declarations lines ++ before.filterMap declared? ⊆ declarations (line :: lines) := by
      have hcons : declarations (line :: lines) =
          (before ++ entry :: after).filterMap declared? ++ declarations lines := by
        rw [← hline]
        rfl
      rw [hcons, List.filterMap_append]
      grind
    obtain ⟨l, hl, f, params, body, place, hmem, hfree, hparams⟩ :=
      exists_declaration_of_leaks hfs hleaks
    have hshows : span.Shows name l := shows_of_mem_body hmem hfree
    rcases List.mem_cons.1 hl with rfl | hl
    · exact Or.inl (hshown hshows)
    · exact Or.inr ⟨l, hl, hshows.bytes, hshows.stop_le, f, params, body, place, hmem, hfree,
        hparams⟩

/-- A variable without a value. -/
theorem undeclared_places_x :
    (Diagnostic.ofError ⟨.runtime (.undeclaredVariable "x"), ⟨0, 1⟩⟩ "x").excerpt? =
        some ⟨"x", Diagnostic.lineName, some "not found in this scope", ⟨0, 1⟩⟩ ∧
      (Span.mk 0 1).bytes "x" = "x".toUTF8 := by
  have herrors : ((Session.new.interpretAll []).2.interpret "x").1.errors =
      [⟨.runtime (.undeclaredVariable "x"), ⟨0, 1⟩⟩] := by
    decide +kernel
  have h := undeclared_places _ [] (fun _ => .thread) "x" .thread "x" ⟨0, 1⟩
    (herrors ▸ List.mem_singleton_self _)
  obtain ⟨hexcerpt, hbytes, -⟩ := h.resolve_right nofun
  exact ⟨hexcerpt, hbytes⟩

/-- The body `x + y` stands in the line before, and its variable `y` at a place that the line at
hand has too: the label is put at the letter `u` of `true`. -/
theorem undeclared_shown_elsewhere :
    ((Session.new.interpretAll ["function f(x) => x + y"]).2.interpret
        "f(true) && true && true").1.errors =
      [⟨.runtime (.undeclaredVariable "y"), ⟨21, 22⟩⟩] ∧
    (Diagnostic.ofError ⟨.runtime (.undeclaredVariable "y"), ⟨21, 22⟩⟩
        "f(true) && true && true").excerpt? =
      some ⟨"f(true) && true && true", Diagnostic.lineName, some "not found in this scope",
        ⟨21, 22⟩⟩ ∧
    (Span.mk 21 22).bytes "f(true) && true && true" = "u".toUTF8 ∧
    (Span.mk 21 22).bytes "f(true) && true && true" ≠ "y".toUTF8 :=
  ⟨by decide +kernel, Diagnostic.excerpt?_ofError (by decide +kernel), by decide +kernel,
    by decide +kernel⟩

end ExprLang
