import Mathlib.Data.List.GetD
import TrailSat.Formula.Semantics
import TrailSat.Proofs.Generate.Sampler
import TrailSat.Proofs.Generate.Tally

/-!
# Every variable is covered

Covering a variable is a `Patch`: one literal, whose variable occurs elsewhere too, gives way to a
literal of the variable that occurred nowhere, and the table stays up to date (`patch_of_coverVar`).
A clause stays `Regular`: the
new variable is not among its others, and if the clause gave up the only literal that held, then the
new one holds in its place.  No variable is lost, for a spare literal is not the only one of its
variable (`Patch.occurs`).  So, when the first variables are covered, patching covers the next one
and spoils nothing (`CoversBelow.patch`), and by induction all variables are covered at the end
(`CoversBelow.run`).
-/

namespace TrailSat.Generate

variable {Gen : Type} [Generator Gen] {assignment : Option (List Bool)} {numVars size : Int}
  {numClauses v : Nat} {state : Tallied} {clauses next : List (List Int)} {clause : List Int}

/-! ## Literals under an assignment -/

/-- The valuation that a row of values stands for. -/
def valuationOf (values : List Bool) : Valuation :=
  fun v => values.getD (v - 1) false

/-- A literal of a variable holds if its sign is the value of the variable. -/
theorem holds_signed (valuation : Valuation) (hv : 1 ≤ v) (positive : Bool) :
    valuation.holds (if positive then (v : Int) else -v) = (valuation v == positive) := by
  rw [Valuation.holds, natAbs_signed]
  cases positive with
  | true => rw [if_pos rfl, if_pos (by omega), beq_true]
  | false => rw [if_neg Bool.false_ne_true, if_neg (by omega), beq_false]

/-- A literal agrees with the assignment, if there is one. -/
def Agrees (assignment : Option (List Bool)) (l : Int) : Prop :=
  ∀ values, assignment = some values → (valuationOf values).holds l = true

theorem agrees_of_newSign {positive : Bool} (hv : 1 ≤ v)
    (h : Gives (newSign assignment v : StateM Gen _) (.ok positive)) :
    Agrees assignment (if positive then (v : Int) else -v) := by
  rintro values rfl
  rw [newSign] at h
  rw [holds_signed _ hv, valuationOf, List.getD_eq_getElem?_getD, beq_iff_eq]
  cases hvalue : values[v - 1]? with
  | none =>
      rw [hvalue] at h
      cases h.of_pure
  | some value =>
      rw [hvalue] at h
      exact (Except.ok.inj h.of_pure).symm

/-! ## The shape of a clause -/

/-- A clause of the given size over distinct variables. -/
structure HasShape (numVars size : Int) (clause : List Int) : Prop where
  length_eq : clause.length = size
  distinct : (clause.map Int.natAbs).Nodup
  inRange : ∀ l ∈ clause, 1 ≤ l.natAbs ∧ l.natAbs ≤ numVars

/-- A clause that has its shape, and holds under the assignment if there is one. -/
structure Regular (assignment : Option (List Bool)) (numVars size : Int) (clause : List Int) : Prop
    extends HasShape numVars size clause where
  holds : ∀ values, assignment = some values → (valuationOf values).holdsClause clause = true

/-- The variables stay distinct when a literal gives way to one of a new variable. -/
theorem nodup_replace {front back : List Int} {old new : Int}
    (h : ((front ++ old :: back).map Int.natAbs).Nodup)
    (hnew : ∀ l ∈ front ++ old :: back, l.natAbs ≠ new.natAbs) :
    ((front ++ new :: back).map Int.natAbs).Nodup := by
  rw [List.map_append, List.map_cons, List.nodup_middle, List.nodup_cons] at h ⊢
  refine ⟨fun hmem => ?_, h.2⟩
  rw [← List.map_append] at hmem
  obtain ⟨l, hl, hvar⟩ := List.mem_map.1 hmem
  exact hnew l (by simpa [or_left_comm] using .inr (List.mem_append.1 hl)) hvar

/-- A clause stays regular when a literal gives way to one of a new variable. -/
theorem Regular.replace {front back : List Int} {old new : Int}
    (h : Regular assignment numVars size (front ++ old :: back))
    (hnew : ∀ l ∈ front ++ old :: back, l.natAbs ≠ new.natAbs)
    (hrange : 1 ≤ new.natAbs ∧ new.natAbs ≤ numVars) (hagrees : Agrees assignment new) :
    Regular assignment numVars size (front ++ new :: back) := by
  refine ⟨⟨?_, nodup_replace h.distinct hnew, fun l hl => ?_⟩, fun values hvalues => ?_⟩
  · rw [← h.length_eq, List.length_append, List.length_append, List.length_cons, List.length_cons]
  · rcases List.mem_append.1 hl with hl | hl
    · exact h.inRange l (List.mem_append_left _ hl)
    · rcases List.mem_cons.1 hl with rfl | hl
      · exact hrange
      · exact h.inRange l (List.mem_append_right _ (List.mem_cons_of_mem _ hl))
  · -- the clause may have lost its only true literal, but the new one is true
    exact List.any_eq_true.2 ⟨new, by simp, hagrees values hvalues⟩

/-! ## Patches -/

/-- A spare literal gives way to a literal of the variable `v` that agrees with the assignment. -/
inductive Patch (assignment : Option (List Bool)) (v : Nat) :
    List (List Int) → List (List Int) → Prop
  | replace (before behind : List (List Int)) (front back : List Int) (old new : Int)
      (hspare : 1 < occurrences (before ++ (front ++ old :: back) :: behind) old.natAbs)
      (hvar : new.natAbs = v) (hagrees : Agrees assignment new) :
      Patch assignment v (before ++ (front ++ old :: back) :: behind)
        (before ++ (front ++ new :: back) :: behind)

theorem Patch.length_eq (h : Patch assignment v clauses next) : next.length = clauses.length := by
  cases h
  simp

/-- A patch moves one occurrence from a variable that has another one to the new variable. -/
theorem Patch.exists_donor (h : Patch assignment v clauses next) :
    ∃ donor, 1 < occurrences clauses donor ∧ ∀ w,
      occurrences next w + (if donor = w then 1 else 0) =
        occurrences clauses w + if v = w then 1 else 0 := by
  cases h with
  | replace before behind front back old new hspare hvar _ =>
      obtain rfl := hvar
      refine ⟨old.natAbs, hspare, fun w => ?_⟩
      rw [occurrences_middle, occurrences_middle _ _ _ _ old]
      omega

/-- The new variable occurs, and those before it do so still. -/
theorem Patch.occurs (h : Patch assignment v clauses next) {w : Nat}
    (hw : occurrences clauses w ≠ 0 ∨ w = v) : occurrences next w ≠ 0 := by
  obtain ⟨donor, hspare, hcount⟩ := h.exists_donor
  have hmoved := hcount w
  by_cases hdonor : donor = w
  · -- one of at least two occurrences is given up
    subst hdonor
    rw [if_pos rfl] at hmoved
    omega
  · rw [if_neg hdonor] at hmoved
    rcases hw with hw | rfl
    · omega
    · rw [if_pos rfl] at hmoved
      omega

theorem Patch.regular (h : Patch assignment v clauses next)
    (hclauses : ∀ clause ∈ clauses, Regular assignment numVars size clause)
    (habsent : occurrences clauses v = 0) (hrange : 1 ≤ v ∧ v ≤ numVars) :
    ∀ clause ∈ next, Regular assignment numVars size clause := by
  cases h with
  | replace before behind front back old new _ hvar hagrees =>
      obtain rfl := hvar
      have hnew := occurrences_eq_zero_iff.1 habsent (front ++ old :: back) (by simp)
      rw [List.forall_mem_append, List.forall_mem_cons] at hclauses ⊢
      obtain ⟨hbefore, hclause, hbehind⟩ := hclauses
      exact ⟨hbefore, hclause.replace hnew hrange hagrees, hbehind⟩

/-! ## Where patches are made -/

/-- Which place is taken is drawn, but it is a spare one. -/
theorem Tallied.UpToDate.patch_patch {place : Nat × Nat} (h : state.UpToDate)
    (hplace : place ∈ state.sparePlaces) {positive : Bool}
    (hagrees : Agrees assignment (if positive then (v : Int) else -v)) :
    Patch assignment v state.clauses (state.patch place v positive).clauses := by
  obtain ⟨clause, old, hclause, hold, hspare⟩ := h.exists_of_mem_sparePlaces hplace
  obtain ⟨before, behind, front, back, hbefore, hafter⟩ :=
    exists_middle_of_place hclause hold (if positive then (v : Int) else -v)
  rw [hbefore] at hspare
  rw [Tallied.patch, hbefore, ← hbefore, hafter, hbefore]
  exact .replace before behind front back old _ hspare (natAbs_signed v positive) hagrees

/-- **Covering a variable is a patch**, and the table stays up to date. -/
theorem patch_of_coverVar [LawfulGenerator Gen] {after : Tallied} (h : state.UpToDate) (hv : 1 ≤ v)
    (habsent : occurrences state.clauses v = 0)
    (hrun : Gives (coverVar assignment state v : StateM Gen _) (.ok after)) :
    Patch assignment v state.clauses after.clauses ∧ after.UpToDate := by
  rw [coverVar] at hrun
  split at hrun
  · cases hrun.of_pure
  · next hplaces =>
    obtain ⟨index, hindex, hrun⟩ := hrun.of_bind
    obtain ⟨sign, hsign, hrun⟩ := hrun.of_bind
    cases sign with
    | error e => cases hrun.of_pure
    | ok positive =>
        obtain rfl := Except.ok.inj hrun.of_pure
        have hpos : 0 < state.sparePlaces.length :=
          List.length_pos_iff.2 fun hnil => hplaces (List.isEmpty_iff.2 hnil)
        have hlt := LawfulGenerator.below_lt hindex hpos
        have hplace : state.sparePlaces.getD index (0, 0) ∈ state.sparePlaces := by
          rw [List.getD_eq_getElem _ _ hlt]
          exact List.getElem_mem _
        exact ⟨h.patch_patch hplace (agrees_of_newSign hv hsign), h.patch hplace habsent positive⟩

/-! ## All variables -/

/-- **What patches keep, the loop over the variables keeps.**  A property of the clauses in which
the variables below some variable occur may be told from variable to variable: the next one occurs
already, or a patch makes it occur. -/
theorem keeps_of_coverFrom [LawfulGenerator Gen] {Keeps : Nat → List (List Int) → Prop}
    {count : Nat}
    (hskip : ∀ v clauses, Keeps v clauses → occurrences clauses v ≠ 0 → Keeps (v + 1) clauses)
    (hpatch : ∀ (v : Nat) clauses next, 1 ≤ v → v ≤ numVars → Keeps v clauses →
      occurrences clauses v = 0 → Patch assignment v clauses next → Keeps (v + 1) next)
    (hstate : state.UpToDate) (h : Keeps v state.clauses) (hv : 1 ≤ v)
    (hlast : v + count ≤ numVars.toNat + 1)
    (hrun : Gives (coverFrom assignment v count state : StateM Gen Covered) ⟨next, none⟩) :
    Keeps (v + count) next := by
  induction count generalizing v state with
  | zero =>
      obtain ⟨rfl, -⟩ := Covered.mk.inj hrun.of_pure
      exact h
  | succ count ih =>
      have hnext : v + (count + 1) = v + 1 + count := by omega
      rw [coverFrom] at hrun
      rw [hnext]
      split at hrun
      · next hentry =>
        have hoccurs := hstate.contains_iff.1 hentry
        exact ih hstate (hskip v state.clauses h hoccurs) (by omega) (by omega) hrun
      · next hentry =>
        have habsent : occurrences state.clauses v = 0 :=
          not_not.1 fun hoccurs => hentry (hstate.contains_iff.2 hoccurs)
        obtain ⟨covered, hcover, hrun⟩ := hrun.of_bind
        cases covered with
        | error e => cases hrun.of_pure
        | ok after =>
            -- the next round starts from the patched clauses and the table that goes with them
            obtain ⟨hpatched, hafter⟩ := patch_of_coverVar hstate hv habsent hcover
            have hkept := hpatch v state.clauses after.clauses hv (by omega) h habsent hpatched
            exact ih hafter hkept (by omega) (by omega) hrun

/-- What holds at the beginning and is kept by patches holds when covering is done. -/
theorem keeps_of_cover [LawfulGenerator Gen] {Keeps : Nat → List (List Int) → Prop}
    (hskip : ∀ v clauses, Keeps v clauses → occurrences clauses v ≠ 0 → Keeps (v + 1) clauses)
    (hpatch : ∀ (v : Nat) clauses next, 1 ≤ v → v ≤ numVars → Keeps v clauses →
      occurrences clauses v = 0 → Patch assignment v clauses next → Keeps (v + 1) next)
    (h : Keeps 1 clauses)
    (hrun : Gives (cover assignment numVars clauses : StateM Gen Covered) ⟨next, none⟩) :
    Keeps (1 + numVars.toNat) next :=
  keeps_of_coverFrom hskip hpatch (upToDate_ofClauses clauses) h (Nat.le_refl 1)
    (Nat.le_of_eq (Nat.add_comm _ _)) hrun

/-- Regular clauses in which the variables below `v` occur. -/
structure CoversBelow (assignment : Option (List Bool)) (numVars size : Int) (numClauses v : Nat)
    (clauses : List (List Int)) : Prop where
  length_eq : clauses.length = numClauses
  regular : ∀ clause ∈ clauses, Regular assignment numVars size clause
  occurs : ∀ w, 1 ≤ w → w < v → occurrences clauses w ≠ 0

theorem CoversBelow.succ (h : CoversBelow assignment numVars size numClauses v clauses)
    (hoccurs : occurrences clauses v ≠ 0) :
    CoversBelow assignment numVars size numClauses (v + 1) clauses := by
  refine ⟨h.length_eq, h.regular, fun w hw hlt => ?_⟩
  rcases Nat.lt_succ_iff_lt_or_eq.1 hlt with hlt | rfl
  · exact h.occurs w hw hlt
  · exact hoccurs

/-- A patch covers the next variable and spoils nothing. -/
theorem CoversBelow.patch (h : CoversBelow assignment numVars size numClauses v clauses)
    (hpatch : Patch assignment v clauses next) (habsent : occurrences clauses v = 0)
    (hrange : 1 ≤ v ∧ v ≤ numVars) :
    CoversBelow assignment numVars size numClauses (v + 1) next := by
  refine ⟨hpatch.length_eq.trans h.length_eq, hpatch.regular h.regular habsent hrange,
    fun w hw hlt => hpatch.occurs ?_⟩
  rcases Nat.lt_succ_iff_lt_or_eq.1 hlt with hlt | heq
  · exact .inl (h.occurs w hw hlt)
  · exact .inr heq

/-- **Covering the variables one after the other covers all of them**, and the clauses stay
regular. -/
theorem CoversBelow.run [LawfulGenerator Gen]
    (h : CoversBelow assignment numVars size numClauses 1 clauses)
    (hrun : Gives (cover assignment numVars clauses : StateM Gen Covered) ⟨next, none⟩) :
    CoversBelow assignment numVars size numClauses (1 + numVars.toNat) next :=
  keeps_of_cover (fun _ _ h hoccurs => h.succ hoccurs)
    (fun _ _ _ hv hle h habsent hpatch => h.patch hpatch habsent ⟨hv, hle⟩) h hrun

end TrailSat.Generate
