import TrailSat.Proofs.Solver.Restoration

/-!
# The solution that is found comes first

A search tries the same value first for every variable, and takes the variables in the order of
their numbers.  So among all solutions it can only find the first one in the lexicographic order in
which the preferred value of a variable comes before the other.  A solution is usually found before
every variable has a value; with the preferred value for the free variables it is the first one.

`first_of_explore` is the heart of it: an induction on the calls of `explore`, for a solution to
compare with that extends the assignment of the call.  If it has the second value where the search
has found something with the first one, this is where it comes later.  If it has the first value
where the search has gone on to the second one, the search would have missed it, against
`not_satisfies_of_explore`.
-/

namespace TrailSat

open Search

/-! ## The order of valuations -/

namespace Valuation

/-- The values of a formula's variables in the order of their numbers. -/
def values (F : Formula) (valuation : Valuation) : List Bool :=
  (List.range' 1 F.numVars).map valuation

/-- The lexicographic order in which the preferred value of a variable comes before the other. -/
def Precedes (F : Formula) (preferred : Bool) (x y : Valuation) : Prop :=
  List.Lex (fun a b => a = preferred ∧ b ≠ preferred) (x.values F) (y.values F)

/-- Whoever has the preferred value at the first difference comes first. -/
theorem eq_or_lex_map {preferred : Bool} {x y : Valuation} {vars : List Nat}
    (hsorted : vars.Pairwise (· < ·))
    (hfirst : ∀ v ∈ vars, (∀ w ∈ vars, w < v → x w = y w) → x v ≠ y v → x v = preferred) :
    vars.map x = vars.map y ∨
      List.Lex (fun a b => a = preferred ∧ b ≠ preferred) (vars.map x) (vars.map y) := by
  induction vars with
  | nil => exact .inl rfl
  | cons v rest ih =>
      obtain ⟨hleast, hrest⟩ := List.pairwise_cons.1 hsorted
      by_cases hvalue : x v = y v
      · have hlater := ih hrest fun w hw hagree => hfirst w (List.mem_cons_of_mem v hw) ?_
        · rw [List.map_cons, List.map_cons, hvalue]
          rcases hlater with heq | hlex
          · exact .inl (by rw [heq])
          · exact .inr (.cons hlex)
        · intro u hu hlt
          rcases List.mem_cons.1 hu with rfl | hu
          · exact hvalue
          · exact hagree u hu hlt
      · -- nothing stands before `v`, so this is the first difference
        have hpreferred : x v = preferred := by
          refine hfirst v List.mem_cons_self (fun w hw hlt => ?_) hvalue
          rcases List.mem_cons.1 hw with rfl | hw
          · exact absurd hlt (Nat.lt_irrefl w)
          · exact absurd (hleast w hw) (Nat.lt_asymm hlt)
        exact .inr (.rel ⟨hpreferred, fun heq => hvalue (hpreferred.trans heq.symm)⟩)

end Valuation

namespace Assignment

/-- The valuation that gives all variables without a value the same one. -/
def completedBy (free : Bool) (a : Assignment) : Valuation :=
  fun v => (a.value? v).getD free

theorem extends_completedBy (free : Bool) (a : Assignment) :
    (a.completedBy free).Extends a := by
  intro v value h
  rw [completedBy, h, Option.getD_some]

/-- All variables below the lowest free one have values. -/
theorem assigned_of_lt {F : Formula} {a : Assignment} {v w : Nat} (h : a.firstFree? F = some v)
    (hlow : 1 ≤ w) (hlt : w < v) : ∃ value, a.value? w = some value := by
  obtain ⟨-, -, hbelow⟩ := List.find?_range'_eq_some.1 h
  have hassigned := hbelow w hlow hlt
  rw [← Option.isSome_iff_exists]
  simpa using hassigned

end Assignment

/-! ## What is found first -/

namespace Search

/-- The variables are assigned in the order of their numbers. -/
theorem order_of_explore {F : Formula} {firstPhase : Bool} {depth : Nat} {a b : Assignment}
    (h : (explore F firstPhase depth a).found = some b) :
    ∃ d, (b.map Prod.fst).reverse = (a.map Prod.fst).reverse ++ (a.freeVars F).take d := by
  -- one call assigns the head of the free variables, and the calls below it some of the rest
  have hcall : ∀ {a : Assignment} {v : Nat} {value : Bool}, a.firstFree? F = some v →
      (∃ d, (b.map Prod.fst).reverse = (((v, value) :: a).map Prod.fst).reverse ++
        (Assignment.freeVars F ((v, value) :: a)).take d) →
      ∃ d, (b.map Prod.fst).reverse = (a.map Prod.fst).reverse ++ (a.freeVars F).take d := by
    rintro a v value hfree ⟨d, hd⟩
    refine ⟨d + 1, ?_⟩
    rw [hd, Assignment.freeVars_eq_cons hfree value, List.take_succ_cons, List.map_cons,
      List.reverse_cons, List.append_assoc, List.singleton_append]
  fun_induction explore F firstPhase depth a with
  | case1 depth a hconflict => cases h
  | case2 depth a hconflict hsolved =>
      obtain rfl := Option.some.inj h
      exact ⟨0, by simp⟩
  | case3 depth a hconflict hsolved hfree => cases h
  | case4 depth a hconflict hsolved v hfree first hfound ih => exact hcall hfree (ih h)
  | case5 depth a hconflict hsolved v hfree first hfound ihfirst ihsecond =>
      exact hcall hfree (ihsecond h)

/-- Where another solution first differs from the one that is found, the latter has the value that
is tried first. -/
theorem first_of_explore {F : Formula} {firstPhase : Bool} {depth : Nat} {a b : Assignment}
    (h : (explore F firstPhase depth a).found = some b) (hproper : b.Proper F)
    {other : Valuation} (hextends : other.Extends a) (hsatisfies : other.satisfies F = true)
    {v : Nat} (hlow : 1 ≤ v)
    (hagree : ∀ w, 1 ≤ w → w < v → b.completedBy firstPhase w = other w)
    (hdiffer : b.completedBy firstPhase v ≠ other v) :
    b.completedBy firstPhase v = firstPhase := by
  have hmodel := Assignment.extends_completedBy firstPhase b
  fun_induction explore F firstPhase depth a with
  | case1 depth a hconflict => cases h
  | case2 depth a hconflict hsolved =>
      -- both extend the assignment, so they differ at a free variable
      obtain rfl := Option.some.inj h
      cases hvalue : a.value? v with
      | none => rw [Assignment.completedBy, hvalue, Option.getD_none]
      | some value =>
          rw [hmodel v value hvalue, hextends v value hvalue] at hdiffer
          exact absurd rfl hdiffer
  | case3 depth a hconflict hsolved hfree => cases h
  | case4 depth a hconflict hsolved u hfree first hfound ih =>
      by_cases hother : other u = firstPhase
      · have hmore := Valuation.extends_cons hextends u
        rw [hother] at hmore
        exact ih h hmore
      · have hbelow : Valuation.Extends (b.completedBy firstPhase) ((u, firstPhase) :: a) :=
          Valuation.extends_of_suffix hproper (suffix_of_explore h) hmodel
        have hvalue : b.completedBy firstPhase u = firstPhase :=
          hbelow u firstPhase (Assignment.value?_cons_self ..)
        -- the first difference is neither after `u` nor, as `other` extends `a`, before it
        rcases Nat.lt_trichotomy u v with hlt | rfl | hlt
        · have hsame := hagree u (Assignment.firstFree?_eq_some hfree).1.1 hlt
          exact absurd (hsame.symm.trans hvalue) hother
        · exact hvalue
        · obtain ⟨value, hassigned⟩ := Assignment.assigned_of_lt hfree hlow hlt
          have hsame : b.completedBy firstPhase v = value := by
            refine hbelow v value ?_
            rw [Assignment.value?_cons_of_ne (Nat.ne_of_lt hlt), hassigned]
          exact absurd (hsame.trans (hextends v value hassigned).symm) hdiffer
  | case5 depth a hconflict hsolved u hfree first hfound ihfirst ihsecond =>
      have hmore := Valuation.extends_cons hextends u
      by_cases hother : other u = firstPhase
      · -- the first call would have met `other`
        rw [hother] at hmore
        have hmissed := not_satisfies_of_explore (Option.not_isSome_iff_eq_none.1 hfound) hmore
        rw [hsatisfies] at hmissed
        cases hmissed
      · rw [Bool.eq_not_of_ne hother] at hmore
        exact ihsecond h hmore

end Search

namespace Solver

/-- **The solution that is found comes first.**  Completed by the value that is tried first, it is
the first of all solutions that keep the values of the state, and the variables that were assigned
for it are the lowest of the free ones, in order. -/
theorem least_of_sat {F : Formula} {s : State} (hs : State.Reachable F s) (settings : Settings)
    (solver : Solver) (hsat : (solver.solve F settings s).result = .ok .sat) :
    let final := (solver.solve F settings s).state
    let model := final.assignment.completedBy settings.firstPhase
    model.Completes F s ∧ model.satisfies F = true ∧
      (∀ other : Valuation, other.Completes F s → other.satisfies F = true →
        model.values F = other.values F ∨ model.Precedes F settings.firstPhase other) ∧
      ∃ d, final.order = s.order ++ (s.assignment.freeVars F).take d := by
  obtain ⟨a, ha, rfl⟩ := State.reachable_iff_along.1 hs
  intro final model
  cases ended_along ha settings solver with
  | stopped hresult hstate hmodel =>
      rw [hresult] at hsat
      cases hsat
  | exhausted hfound hresult hstate hmodel =>
      rw [hresult] at hsat
      cases hsat
  | found later hproper hfound hresult hstate =>
      have hmodel : model = Assignment.completedBy settings.firstPhase (later ++ a) := by
        simp only [model, final, hstate, State.assignment_along hproper]
      have hextends : model.Extends (later ++ a) := by
        rw [hmodel]
        exact Assignment.extends_completedBy _ _
      simp only [Valuation.completes_along ha, State.assignment_along ha]
      refine ⟨?_, ?_, fun other hother hsatisfies => ?_, ?_⟩
      · exact Valuation.extends_of_suffix hproper (suffix_of_explore hfound) hextends
      · exact satisfies_of_solved hextends (satisfies_of_explore hfound)
      · refine Valuation.eq_or_lex_map List.pairwise_lt_range' fun v hv hagree hdiffer => ?_
        rw [List.mem_range'_1] at hv
        rw [hmodel] at hagree hdiffer ⊢
        refine first_of_explore hfound hproper hother hsatisfies hv.1 (fun w hlow hlt => ?_)
          hdiffer
        exact hagree w (List.mem_range'_1.2 ⟨hlow, by omega⟩) hlt
      · have horder := order_of_explore hfound
        simp only [final, hstate]
        exact horder

/-- The second variable of the knot is true, and `false` is tried first.  The third variable has to
be true then, and the first one may have either value. -/
theorem least_of_sat_of_knot :
    let settings : Settings := { firstPhase := false }
    let s := State.along Formula.knot [(2, true)]
    let final := (solve Formula.knot settings s {}).state
    State.Reachable Formula.knot s ∧ (solve Formula.knot settings s {}).result = .ok .sat ∧
      (final.assignment.completedBy false).Precedes Formula.knot false (fun _ => true) ∧
      final.order = [2, 1, 3] := by
  intro settings s final
  have hproper : Assignment.Proper Formula.knot [(2, true)] := ⟨by decide, rfl, trivial⟩
  have hs : State.Reachable Formula.knot s := State.reachable_along hproper
  have hsat : (solve Formula.knot settings s {}).result = .ok .sat :=
    result_of_toOption (by decide +kernel)
  obtain ⟨-, -, hleast, -⟩ := least_of_sat hs settings {} hsat
  have hcompletes : Valuation.Completes Formula.knot s fun _ => true := by
    rw [Valuation.completes_along hproper]
    intro v value hvalue
    rw [Assignment.value?_cons] at hvalue
    split at hvalue
    · exact Option.some.inj hvalue
    · cases hvalue
  refine ⟨hs, hsat, (hleast _ hcompletes (by decide)).resolve_left ?_, by decide +kernel⟩
  decide +kernel

end Solver

end TrailSat
