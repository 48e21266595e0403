import Mathlib.Data.List.Forall2
import TrailSat.Proofs.Generate.Spare

/-!
# What covering leaves alone

Covering the variables changes clauses in place, and which literal is given up is drawn.  Patches
follow one another: a variable that could be spared at first may be down to its last occurrence
later, after other patches have taken the rest.

`fills_of_cover` compares the clauses at the end with those at the beginning, for all patches
together and whatever is drawn.  Clause by clause and literal by literal they are the same, except
that each missing variable has got one place (`Mends`, `Filled`).  Nothing is asked of the clauses:
variables may repeat in a clause and may lie beyond those that are to be covered.

The occurrences carry the proof.  A patch moves one occurrence from a variable that has another one
to the next missing variable, so in the loop (`FilledBelow`) a variable that occurred at the
beginning occurs still, a missing variable occurs once from its turn on, and its only occurrence is
never given up again.
-/

namespace TrailSat.Generate

variable {Gen α : Type} [Generator Gen] {assignment : Option (List Bool)} {values : List Bool}
  {numVars : Int} {v : Nat} {clauses current next : List (List Int)} {IsNew : Int → Prop}

/-! ## Agreeing with a row of values -/

/-- A literal whose variable has a value in the row, and which is true under it. -/
def AgreesWith (values : List Bool) (l : Int) : Prop :=
  values[l.natAbs - 1]? = some (decide (0 < l))

/-- A clause with a literal that agrees with the row. -/
def SatisfiedBy (values : List Bool) (clause : List Int) : Prop :=
  ∃ l ∈ clause, AgreesWith values l

/-- For the variables that have a value in the row it does not matter what is assumed of the
others. -/
theorem agreesWith_of_holds {l : Int} (hlow : 1 ≤ l.natAbs) (hhigh : l.natAbs ≤ values.length)
    (h : (valuationOf values).holds l = true) : AgreesWith values l := by
  have hindex : l.natAbs - 1 < values.length := by omega
  rw [Valuation.holds, valuationOf, List.getD_eq_getElem _ _ hindex] at h
  rw [AgreesWith, List.getElem?_eq_getElem hindex]
  by_cases hsign : 0 < l
  · simpa [hsign] using h
  · simpa [hsign] using h

/-! ## What may become of a clause -/

/-- Some literals of a clause give way to new ones. -/
structure Mends (assignment : Option (List Bool)) (IsNew : Int → Prop) (old new : List Int) :
    Prop where
  /-- Each place keeps its literal or gets a new one. -/
  literals : List.Forall₂ (fun l m => m = l ∨ IsNew m) old new
  /-- If no variable was repeated, none is now. -/
  distinct : (old.map Int.natAbs).Nodup → (new.map Int.natAbs).Nodup
  /-- If the assignment satisfied the clause, it does so still. -/
  satisfied : ∀ values, assignment = some values → SatisfiedBy values old → SatisfiedBy values new

theorem forall₂_trans {R S T : α → α → Prop} (hcomp : ∀ a b c, R a b → S b c → T a c)
    {first second third : List α} (h : List.Forall₂ R first second)
    (h' : List.Forall₂ S second third) : List.Forall₂ T first third := by
  induction h generalizing third with
  | nil =>
      cases h'
      exact .nil
  | cons hab _ ih =>
      cases h' with
      | cons hbc hrest => exact .cons (hcomp _ _ _ hab hbc) (ih hrest)

theorem Mends.refl (clause : List Int) : Mends assignment IsNew clause clause where
  literals := List.forall₂_same.2 fun _ _ => .inl rfl
  distinct := id
  satisfied := fun _ _ => id

theorem Mends.trans {old mid new : List Int} (h : Mends assignment IsNew old mid)
    (h' : Mends assignment IsNew mid new) : Mends assignment IsNew old new where
  literals := by
    refine forall₂_trans (fun l m n hm hn => ?_) h.literals h'.literals
    rcases hn with rfl | hn
    · exact hm
    · exact .inr hn
  distinct := h'.distinct ∘ h.distinct
  satisfied := fun values hvalues => h'.satisfied values hvalues ∘ h.satisfied values hvalues

/-! ## The clauses -/

theorem mem_missingVars : v ∈ missingVars numVars clauses ↔
    (1 ≤ v ∧ v ≤ numVars) ∧ occurrences clauses v = 0 := by
  rw [missingVars, Finset.mem_sdiff, Finset.mem_Icc, mem_usedVars, not_not]
  constructor
  · rintro ⟨⟨hlow, hhigh⟩, habsent⟩
    exact ⟨⟨hlow, by omega⟩, habsent⟩
  · rintro ⟨⟨hlow, hhigh⟩, habsent⟩
    exact ⟨⟨hlow, by omega⟩, habsent⟩

/-- A literal of a missing variable, which agrees with the assignment if there is one. -/
structure Fills (assignment : Option (List Bool)) (numVars : Int) (clauses : List (List Int))
    (l : Int) : Prop where
  missing : l.natAbs ∈ missingVars numVars clauses
  agrees : ∀ values, assignment = some values → AgreesWith values l

/-- A literal gives way to one that fills, if the variable of that is not in the clause. -/
theorem mends_replace {front back : List Int} {old new : Int}
    (hnew : Fills assignment numVars clauses new)
    (hvar : ∀ l ∈ front ++ old :: back, l.natAbs ≠ new.natAbs) :
    Mends assignment (Fills assignment numVars clauses) (front ++ old :: back)
      (front ++ new :: back) where
  literals := by
    have hkeep (literals : List Int) : List.Forall₂
        (fun l m => m = l ∨ Fills assignment numVars clauses m) literals literals :=
      List.forall₂_same.2 fun _ _ => .inl rfl
    exact List.rel_append (hkeep front) (.cons (.inr hnew) (hkeep back))
  distinct := fun h => nodup_replace h hvar
  -- the clause may have lost its only literal that agreed, but the new one agrees
  satisfied := fun values hvalues _ => ⟨new, by simp, hnew.agrees values hvalues⟩

/-- Clauses into which the missing variables have been brought, and nothing else. -/
structure Filled (assignment : Option (List Bool)) (numVars : Int)
    (clauses next : List (List Int)) : Prop where
  /-- There are the same clauses, and a place without its literal has one of a missing variable. -/
  mends : List.Forall₂ (Mends assignment (Fills assignment numVars clauses)) clauses next
  /-- No variable is lost. -/
  keeps : ∀ v, occurrences clauses v ≠ 0 → occurrences next v ≠ 0
  /-- Each missing variable has exactly one place. -/
  once : ∀ v ∈ missingVars numVars clauses, occurrences next v = 1
  /-- What stands there agrees with the assignment. -/
  agrees : ∀ clause ∈ next, ∀ l ∈ clause, l.natAbs ∈ missingVars numVars clauses →
    ∀ values, assignment = some values → AgreesWith values l

/-- On the way: the missing variables below `v` have been brought in, the others have not. -/
structure FilledBelow (assignment : Option (List Bool)) (numVars : Int)
    (clauses : List (List Int)) (v : Nat) (current : List (List Int)) : Prop where
  mends : List.Forall₂ (Mends assignment (Fills assignment numVars clauses)) clauses current
  keeps : ∀ w, occurrences clauses w ≠ 0 → occurrences current w ≠ 0
  once : ∀ w, 1 ≤ w → w < v → occurrences clauses w = 0 → occurrences current w = 1
  waits : ∀ w, v ≤ w → occurrences clauses w = 0 → occurrences current w = 0

theorem filledBelow_start : FilledBelow assignment numVars clauses 1 clauses where
  mends := List.forall₂_same.2 fun clause _ => .refl clause
  keeps := fun _ h => h
  once := fun _ hlow hlt => absurd hlt (Nat.not_lt.2 hlow)
  waits := fun _ _ h => h

theorem FilledBelow.skip (h : FilledBelow assignment numVars clauses v current)
    (hoccurs : occurrences current v ≠ 0) :
    FilledBelow assignment numVars clauses (v + 1) current := by
  refine ⟨h.mends, h.keeps, fun w hlow hlt habsent => ?_, fun w hle => h.waits w (by omega)⟩
  have hne : w ≠ v := by
    rintro rfl
    exact hoccurs (h.waits w (Nat.le_refl w) habsent)
  exact h.once w hlow (by omega) habsent

/-- A patch mends one clause. -/
theorem Patch.mends (h : Patch assignment v current next) (habsent : occurrences current v = 0)
    (hnew : ∀ l : Int, l.natAbs = v → Agrees assignment l → Fills assignment numVars clauses l) :
    List.Forall₂ (Mends assignment (Fills assignment numVars clauses)) current next := by
  cases h with
  | replace before behind front back old new _ hvar hagrees =>
      have hkeep (others : List (List Int)) :
          List.Forall₂ (Mends assignment (Fills assignment numVars clauses)) others others :=
        List.forall₂_same.2 fun clause _ => .refl clause
      have hfills := hnew new hvar hagrees
      obtain rfl := hvar
      have hothers := occurrences_eq_zero_iff.1 habsent (front ++ old :: back) (by simp)
      exact List.rel_append (hkeep before) (.cons (mends_replace hfills hothers) (hkeep behind))

theorem FilledBelow.patch (h : FilledBelow assignment numVars clauses v current)
    (hvalues : ∀ values, assignment = some values → numVars ≤ values.length)
    (hrange : 1 ≤ v ∧ v ≤ numVars) (habsent : occurrences current v = 0)
    (hpatch : Patch assignment v current next) :
    FilledBelow assignment numVars clauses (v + 1) next := by
  have hmissing : occurrences clauses v = 0 := by
    by_contra hoccurs
    exact h.keeps v hoccurs habsent
  have hnew : ∀ l : Int, l.natAbs = v → Agrees assignment l →
      Fills assignment numVars clauses l := by
    rintro l rfl hagrees
    refine ⟨mem_missingVars.2 ⟨hrange, hmissing⟩, fun values hvalue => ?_⟩
    have hlength := hvalues values hvalue
    exact agreesWith_of_holds hrange.1 (by omega) (hagrees values hvalue)
  have hmended := hpatch.mends habsent hnew
  obtain ⟨donor, hdonor, hcount⟩ := hpatch.exists_donor
  constructor
  case mends => exact forall₂_trans (fun _ _ _ hold hnew => hold.trans hnew) h.mends hmended
  case keeps => exact fun w hoccurs => hpatch.occurs (.inl (h.keeps w hoccurs))
  case once =>
    intro w hlow hlt hw
    have hmoved := hcount w
    by_cases hturn : v = w
    · subst hturn
      have hother : donor ≠ v := by
        rintro rfl
        omega
      rw [if_neg hother, if_pos rfl] at hmoved
      omega
    · -- a variable that has been brought in cannot be spared
      have hbefore := h.once w hlow (by omega) hw
      have hother : donor ≠ w := by
        rintro rfl
        omega
      rw [if_neg hother, if_neg hturn] at hmoved
      omega
  case waits =>
    intro w hle hw
    have hbefore := h.waits w (by omega) hw
    have hmoved := hcount w
    have hother : v ≠ w := by omega
    rw [if_neg hother] at hmoved
    omega

theorem exists_of_mem_right {R : α → α → Prop} {first second : List α} {b : α}
    (h : List.Forall₂ R first second) (hb : b ∈ second) : ∃ a ∈ first, R a b := by
  induction h with
  | nil => cases hb
  | cons hab _ ih =>
      rcases List.mem_cons.1 hb with rfl | hb
      · exact ⟨_, List.mem_cons_self, hab⟩
      · obtain ⟨a, ha, hR⟩ := ih hb
        exact ⟨a, List.mem_cons_of_mem _ ha, hR⟩

/-- The literals of missing variables are those that have been brought in. -/
theorem fills_of_mem {clause : List Int} {l : Int}
    (hmends : List.Forall₂ (Mends assignment (Fills assignment numVars clauses)) clauses next)
    (hclause : clause ∈ next) (hl : l ∈ clause)
    (hmissing : l.natAbs ∈ missingVars numVars clauses) :
    Fills assignment numVars clauses l := by
  obtain ⟨old, hold, hmended⟩ := exists_of_mem_right hmends hclause
  obtain ⟨m, hm, rfl | hfills⟩ := exists_of_mem_right hmended.literals hl
  · obtain ⟨-, habsent⟩ := mem_missingVars.1 hmissing
    exact absurd rfl (occurrences_eq_zero_iff.1 habsent old hold l hm)
  · exact hfills

/-- **Covering changes only what it must.**  All variables stay, each missing one gets one place,
where it agrees with the assignment, and there is no other change; no clause comes to repeat a
variable, and none ceases to be satisfied. -/
theorem fills_of_cover [LawfulGenerator Gen]
    (hvalues : ∀ values, assignment = some values → numVars ≤ values.length) (gen : Gen)
    (hrun : ((cover assignment numVars clauses).run gen).1 = ⟨next, none⟩) :
    Filled assignment numVars clauses next := by
  have hend : FilledBelow assignment numVars clauses (1 + numVars.toNat) next := by
    refine keeps_of_cover (fun v current h hoccurs => h.skip hoccurs) ?_ filledBelow_start
      ⟨gen, hrun⟩
    intro v current patched hlow hhigh h habsent hpatch
    exact h.patch hvalues ⟨hlow, hhigh⟩ habsent hpatch
  constructor
  case mends => exact hend.mends
  case keeps => exact hend.keeps
  case once =>
    intro v hv
    obtain ⟨⟨hlow, hhigh⟩, habsent⟩ := mem_missingVars.1 hv
    exact hend.once v hlow (by omega) habsent
  case agrees =>
    intro clause hclause l hl hmissing
    exact (fills_of_mem hend.mends hclause hl hmissing).agrees

/-- A stream of ones, of which some are used up. -/
def onesDraws (used : Nat) : Draws :=
  { Draws.cycle [1] with used := used }

/-- The third variable takes one of three places of the first one, and the fourth variable then one
of the two that are left.  The seventh variable, which is beyond those asked for, stays. -/
theorem cover_of_onesDraws :
    ((cover (some [true, false, true, false]) 4 [[1, -1, 7], [-2, 1]]).run (onesDraws 0)).1 =
      ⟨[[1, 3, 7], [-2, -4]], none⟩ := by
  decide

theorem fills_of_cover_of_repeats :
    (∀ values, some [true, false, true, false] = some values → (4 : Int) ≤ values.length) ∧
      ((cover (some [true, false, true, false]) 4 [[1, -1, 7], [-2, 1]]).run (onesDraws 0)).1 =
        ⟨[[1, 3, 7], [-2, -4]], none⟩ ∧
      Filled (some [true, false, true, false]) 4 [[1, -1, 7], [-2, 1]]
        [[1, 3, 7], [-2, -4]] := by
  have hvalues : ∀ values, some [true, false, true, false] = some values →
      (4 : Int) ≤ values.length := by
    rintro _ ⟨⟩
    decide
  exact ⟨hvalues, cover_of_onesDraws, fills_of_cover hvalues _ cover_of_onesDraws⟩

end TrailSat.Generate
