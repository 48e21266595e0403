import Mathlib.Data.List.Basic
import TrailSat.Formula.Basic
import TrailSat.Proofs.Fallible

/-!
# What it takes to be a formula

`Formula.ofClauses` checks the literals of every clause, whether clauses are empty, the number of
clauses, and last whether there is room for the variables.  So it gives the formula with just these
clauses if nothing is wrong with them (`ofClauses_eq_ok_iff`), and there can be a lack of room only
if nothing else is wrong (`ofClauses_of_sound`, `exists_flaw_of_not_sound`).

Where the number of variables is not given it is taken from the literals: it is the greatest
variable among them (`greatestVar_le_iff`).
-/

namespace TrailSat.Formula

variable {numVars : Nat}

/-! ## Literals -/

/-- The integers of the literals in some clauses. -/
def integersOf (clauses : List (List (Literal numVars))) : List (List Int) :=
  clauses.map fun clause => clause.map Subtype.val

/-- Every integer in some clauses is a literal over the given number of variables. -/
def InRange (numVars : Nat) (clauses : List (List Int)) : Prop :=
  ∀ clause ∈ clauses, ∀ l ∈ clause, l ≠ 0 ∧ l.natAbs ≤ numVars

theorem exists_literals {clauses : List (List Int)} (h : InRange numVars clauses) :
    ∃ read : List (List (Literal numVars)), integersOf read = clauses := by
  induction clauses with
  | nil => exact ⟨[], rfl⟩
  | cons clause rest ih =>
      obtain ⟨hclause, hrest⟩ := List.forall_mem_cons.1 h
      obtain ⟨read, hread⟩ := ih hrest
      refine ⟨clause.attachWith _ hclause :: read, ?_⟩
      rw [integersOf, List.map_cons, List.attachWith_map_subtype_val, ← integersOf, hread]

theorem inRange_integersOf (read : List (List (Literal numVars))) :
    InRange numVars (integersOf read) := by
  intro clause hclause l hl
  obtain ⟨literals, -, rfl⟩ := List.mem_map.1 hclause
  obtain ⟨literal, -, rfl⟩ := List.mem_map.1 hl
  exact literal.2

theorem length_integersOf (read : List (List (Literal numVars))) :
    (integersOf read).length = read.length :=
  List.length_map _

/-! ## Reading clauses -/

variable {allowEmpty : Bool}

theorem readLiteral_eq_ok_iff {index : Nat} {l : Int} {literal : Literal numVars} :
    readLiteral numVars index l = .ok literal ↔ literal.val = l := by
  rw [readLiteral]
  constructor
  · intro h
    split at h
    · cases h
    · split at h
      · obtain rfl := Except.ok.inj h
        rfl
      · cases h
  · rintro rfl
    rw [dif_neg literal.2.1, dif_pos literal.2.2]

theorem readClause_eq_ok_iff {index : Nat} {clause : List Int} {literals : List (Literal numVars)} :
    readClause (readLiteral numVars index) allowEmpty index clause = .ok literals ↔
      literals.map Subtype.val = clause ∧ (allowEmpty = false → clause ≠ []) := by
  rw [readClause, bind_eq_ok_iff]
  simp only [mapM_eq_ok_iff_map fun l literal => readLiteral_eq_ok_iff]
  constructor
  · rintro ⟨read, rfl, h⟩
    split at h
    · cases h
    · next hempty =>
      obtain rfl := Except.ok.inj h
      refine ⟨rfl, fun hallow hnil => hempty ?_⟩
      rw [hallow, List.map_eq_nil_iff.1 hnil]
      rfl
  · rintro ⟨rfl, hempty⟩
    refine ⟨literals, rfl, if_neg ?_⟩
    rw [Bool.and_eq_true, Bool.not_eq_true', List.isEmpty_iff]
    rintro ⟨rfl, hallow⟩
    exact hempty hallow rfl

theorem mapM_readClause_eq_ok_iff (start : Nat) {clauses : List (List Int)}
    {read : List (List (Literal numVars))} :
    (clauses.zipIdx start).mapM (fun (clause, index) =>
        readClause (readLiteral numVars index) allowEmpty index clause) = .ok read ↔
      integersOf read = clauses ∧ (allowEmpty = false → [] ∉ clauses) := by
  rw [mapM_eq_ok_iff]
  simp only [readClause_eq_ok_iff]
  induction clauses generalizing start read with
  | nil => simp [integersOf, List.forall₂_nil_left_iff]
  | cons clause rest ih =>
      cases read with
      | nil => simp [integersOf]
      | cons literals read =>
          rw [List.zipIdx_cons, List.forall₂_cons, ih]
          simp only [integersOf, List.map_cons, List.cons.injEq, List.mem_cons, not_or, ne_eq,
            eq_comm (a := [])]
          tauto

/-- Telling a flaw does not make it a lack of room. -/
theorem Flaw.told_ne_noRoom {flaw : Flaw} {shortage : Shortage} (h : flaw ≠ .noRoom shortage) :
    flaw.told ≠ .noRoom shortage := by
  rw [Flaw.told]
  split
  · exact h
  · exact nofun

/-- Whatever is wrong with a clause, it is not the number of its variables. -/
theorem ne_noRoom_of_readClause {index : Nat} {clause : List Int} {flaw : Flaw}
    (h : readClause (readLiteral numVars index) allowEmpty index clause = .error flaw)
    (shortage : Shortage) : flaw ≠ .noRoom shortage := by
  rw [readClause, bind_eq_error_iff] at h
  rcases h with h | ⟨literals, -, h⟩
  · obtain ⟨l, -, hl⟩ := exists_of_mapM_eq_error h
    rw [readLiteral] at hl
    split at hl
    · cases hl
      exact nofun
    · split at hl
      · cases hl
      · obtain rfl := Except.error.inj hl
        exact Flaw.told_ne_noRoom nofun
  · split at h
    · cases h
      exact nofun
    · cases h

/-! ## Building a formula -/

variable {name : Option String} {numClauses : Nat} {clauses : List (List Int)}

/-- Nothing is wrong with some clauses but that there may be too many variables. -/
structure Sound (allowEmpty : Bool) (numVars numClauses : Nat) (clauses : List (List Int)) :
    Prop where
  inRange : InRange numVars clauses
  length_eq : clauses.length = numClauses
  nonempty : allowEmpty = false → [] ∉ clauses

theorem ofClauses_of_sound (h : Sound allowEmpty numVars numClauses clauses) :
    ofClauses name numVars numClauses clauses allowEmpty =
      if hroom : numVars < Value.rowBound then .ok ⟨name, numVars, clauses, h.inRange, hroom⟩
      else .error (.noRoom (.ofVars numVars)) := by
  obtain ⟨read, hread⟩ := exists_literals h.inRange
  have hclauses := (mapM_readClause_eq_ok_iff 0).2 ⟨hread, h.nonempty⟩
  have hlength : read.length = numClauses := by
    rw [← length_integersOf, hread, h.length_eq]
  rw [ofClauses, hclauses]
  subst hread
  exact if_pos hlength

theorem exists_flaw_of_not_sound (h : ¬Sound allowEmpty numVars numClauses clauses) :
    ∃ flaw, ofClauses name numVars numClauses clauses allowEmpty = .error flaw ∧
      ∀ shortage, flaw ≠ .noRoom shortage := by
  rw [ofClauses]
  cases hread : clauses.zipIdx.mapM fun (clause, index) =>
      readClause (readLiteral numVars index) allowEmpty index clause with
  | error flaw =>
      obtain ⟨⟨clause, index⟩, -, hclause⟩ := exists_of_mapM_eq_error hread
      exact ⟨flaw, rfl, ne_noRoom_of_readClause hclause⟩
  | ok read =>
      obtain ⟨rfl, hnonempty⟩ := (mapM_readClause_eq_ok_iff 0).1 hread
      have hlength : read.length ≠ numClauses := fun hlength =>
        h ⟨inRange_integersOf read, (length_integersOf read).trans hlength, hnonempty⟩
      exact ⟨_, if_neg hlength, fun _ => Flaw.told_ne_noRoom nofun⟩

theorem emptyClause_of_readClause {index : Nat} {clause : List Int} {flaw : Flaw}
    (hrange : ∀ l ∈ clause, l ≠ 0 ∧ l.natAbs ≤ numVars)
    (h : readClause (readLiteral numVars index) allowEmpty index clause = .error flaw) :
    flaw = .emptyClause index ∧ allowEmpty = false := by
  rw [readClause, bind_eq_error_iff] at h
  rcases h with h | ⟨literals, -, h⟩
  · obtain ⟨l, hl, hread⟩ := exists_of_mapM_eq_error h
    obtain ⟨hne, hle⟩ := hrange l hl
    rw [readLiteral, dif_neg hne, dif_pos hle] at hread
    cases hread
  · split at h
    · next hempty =>
      rw [Bool.and_eq_true, Bool.not_eq_true'] at hempty
      exact ⟨(Except.error.inj h).symm, hempty.2⟩
    · cases h

/-- When the literals are in range and the clauses are counted, little is left to be wrong. -/
theorem flaw_of_inRange {flaw : Flaw} (hrange : InRange numVars clauses)
    (h : ofClauses name numVars clauses.length clauses allowEmpty = .error flaw) :
    (∃ index, flaw = .emptyClause index ∧ allowEmpty = false) ∨
      ∃ shortage, flaw = .noRoom shortage := by
  rw [ofClauses, bind_eq_error_iff] at h
  rcases h with h | ⟨read, hread, h⟩
  · obtain ⟨⟨clause, index⟩, hmem, hclause⟩ := exists_of_mapM_eq_error h
    have hin := hrange clause (List.fst_mem_of_mem_zipIdx hmem)
    exact .inl ⟨index, emptyClause_of_readClause hin hclause⟩
  · obtain ⟨rfl, -⟩ := (mapM_readClause_eq_ok_iff 0).1 hread
    rw [ofCounted, if_pos (length_integersOf read).symm] at h
    split at h
    · cases h
    · exact .inr ⟨_, (Except.error.inj h).symm⟩

/-- **Clauses make a formula when nothing is wrong with them.** -/
theorem ofClauses_eq_ok_iff {F : Formula} :
    ofClauses name numVars numClauses clauses allowEmpty = .ok F ↔
      (F.name = name ∧ F.numVars = numVars ∧ F.clauses = clauses) ∧
        Sound allowEmpty numVars numClauses clauses := by
  by_cases hsound : Sound allowEmpty numVars numClauses clauses
  · rw [ofClauses_of_sound hsound]
    constructor
    · intro h
      split at h
      · obtain rfl := Except.ok.inj h
        exact ⟨⟨rfl, rfl, rfl⟩, hsound⟩
      · cases h
    · -- a formula has room for its own variables
      rintro ⟨⟨rfl, rfl, rfl⟩, -⟩
      exact dif_pos F.hasRoom
  · obtain ⟨flaw, hflaw, -⟩ := exists_flaw_of_not_sound hsound
    rw [hflaw]
    exact ⟨nofun, fun h => absurd h.2 hsound⟩

/-! ## As many variables as occur -/

theorem foldl_max_le_iff {literals : List Int} {start n : Nat} :
    literals.foldl (fun greatest l => max greatest l.natAbs) start ≤ n ↔
      start ≤ n ∧ ∀ l ∈ literals, l.natAbs ≤ n := by
  induction literals generalizing start with
  | nil => simp
  | cons l rest ih => rw [List.foldl_cons, ih, Nat.max_le, List.forall_mem_cons, and_assoc]

theorem greatestVar_le_iff {n : Nat} :
    greatestVar clauses ≤ n ↔ ∀ clause ∈ clauses, ∀ l ∈ clause, l.natAbs ≤ n := by
  rw [greatestVar, foldl_max_le_iff]
  simp only [Nat.zero_le, true_and, List.forall_mem_flatten]

/-- The greatest variable is that of some literal, if there are any. -/
theorem greatestVar_eq_zero_or (clauses : List (List Int)) :
    greatestVar clauses = 0 ∨ ∃ clause ∈ clauses, ∃ l ∈ clause, l.natAbs = greatestVar clauses := by
  -- otherwise all literals would be below the greatest variable
  by_contra! h
  obtain ⟨hpos, hnone⟩ := h
  have hall := greatestVar_le_iff.1 (Nat.le_refl (greatestVar clauses))
  have hless : greatestVar clauses ≤ greatestVar clauses - 1 := by
    refine greatestVar_le_iff.2 fun clause hclause l hl => ?_
    have hle := hall clause hclause l hl
    have hne := hnone clause hclause l hl
    omega
  omega

/-- The greatest variable is the last one, if that occurs. -/
theorem greatestVar_eq (hrange : InRange numVars clauses)
    (hoccurs : numVars ≠ 0 → ∃ clause ∈ clauses, ∃ l ∈ clause, l.natAbs = numVars) :
    greatestVar clauses = numVars := by
  apply Nat.le_antisymm
  · exact greatestVar_le_iff.2 fun clause hclause l hl => (hrange clause hclause l hl).2
  · by_cases hzero : numVars = 0
    · exact hzero ▸ Nat.zero_le _
    · obtain ⟨clause, hclause, l, hl, hvar⟩ := hoccurs hzero
      exact hvar ▸ greatestVar_le_iff.1 (Nat.le_refl _) clause hclause l hl

end TrailSat.Formula
