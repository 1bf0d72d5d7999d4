import ExprLang.Scope

/-!
# What a scope gives

* `Scope.get?_extend`: later bindings hide earlier ones, and all of them hide the scope around them;
* `Scope.Defined`: every name in sight has a value to show, and `extend` keeps it so.
-/

namespace ExprLang

namespace Scope

variable {s : Scope} {bindings : List (String × Value)} {name : String} {v : Value}

theorem lookup_filter_ne {name other : String} (h : name ≠ other)
    (entries : List (String × Value)) :
    (entries.filter fun e => e.1 != other).lookup name = entries.lookup name := by
  induction entries with
  | nil => rfl
  | cons e entries ih =>
    obtain ⟨key, v⟩ := e
    by_cases hkey : key = other
    · subst hkey
      have hname : (name == key) = false := beq_eq_false_iff_ne.2 h
      simp only [List.filter_cons, bne_self_eq_false, Bool.false_eq_true, if_false,
        List.lookup_cons, hname, ih]
    · simp only [List.filter_cons, bne_iff_ne, ne_eq, hkey, not_false_eq_true, if_true,
        List.lookup_cons, ih]

theorem get?_bind (s : Scope) (name other : String) (v : Value) :
    (s.bind other v).get? name = if name = other then some v else s.get? name := by
  show ((other, v) :: s.entries.filter fun e => e.1 != other).lookup name = _
  by_cases h : name = other
  · simp [h]
  · rw [if_neg h, List.lookup_cons, lookup_filter_ne h, beq_eq_false_iff_ne.2 h]
    rfl

/-- The last binding of a name counts; a name without one is looked up outside. -/
theorem get?_extend (s : Scope) (bindings : List (String × Value)) (name : String) :
    (s.extend bindings).get? name = (bindings.reverse.lookup name).or (s.get? name) := by
  induction bindings generalizing s with
  | nil => rfl
  | cons b bindings ih =>
    show ((s.bind b.1 b.2).extend bindings).get? name = _
    rw [ih, get?_bind, List.reverse_cons, List.lookup_append, Option.or_assoc, List.lookup_cons]
    by_cases h : name = b.1
    · simp [h]
    · simp [h, beq_eq_false_iff_ne.2 h]

theorem get?_extend_eq_none_iff :
    (s.extend bindings).get? name = none ↔ name ∉ bindings.map Prod.fst ∧ s.get? name = none := by
  rw [get?_extend, Option.or_eq_none_iff, List.lookup_eq_none_iff]
  refine and_congr_left fun _ => ⟨fun h hmem => ?_, fun h b hb => ?_⟩
  · obtain ⟨b, hb, rfl⟩ := List.mem_map.1 hmem
    exact absurd (h b (List.mem_reverse.2 hb)) (by simp)
  · rw [bne_iff_ne]
    rintro rfl
    exact h (List.mem_map_of_mem (List.mem_reverse.1 hb))

/-- No name stands for nothing. -/
def Defined (s : Scope) : Prop := ∀ name, s.get? name ≠ some .nothing

theorem defined_empty : empty.Defined := nofun

theorem Defined.extend (hs : s.Defined) (hv : ∀ b ∈ bindings, b.2 ≠ .nothing) :
    (s.extend bindings).Defined := by
  intro name h
  rw [get?_extend, Option.or_eq_some_iff] at h
  rcases h with h | ⟨-, h⟩
  · rw [List.lookup_eq_some_iff] at h
    obtain ⟨before, after, h, -⟩ := h
    refine hv (name, .nothing) ?_ rfl
    rw [← List.mem_reverse, h]
    simp
  · exact hs name h

theorem Defined.ofList (hv : ∀ b ∈ bindings, b.2 ≠ .nothing) : (Scope.ofList bindings).Defined :=
  defined_empty.extend hv

end Scope

end ExprLang
