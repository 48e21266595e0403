import Mathlib.Algebra.Order.Interval.Finset.SuccPred
import Mathlib.Data.List.Dedup
import Mathlib.Data.Nat.SuccPred
import Mathlib.Order.Interval.Finset.Nat
import TrailSat.Proofs.Generate.Problem

/-!
# When all variables can be covered

A draw may take the place of any spare literal, but no draw can make covering fail: only how many
literals can be spared counts.  There are `spareCount` of them, all literals but one for each
variable that occurs.  A patch uses up exactly one (`Patch.spareCount_eq`) and covers exactly one
variable (`Patch.usedVars_eq`), and there is a spare place as long as the count is not zero
(`sparePlaces_eq_nil_iff`).  So the loop over the variables fails just when more of them are missing
than literals can be spared (`failure_of_coverFrom`).

In a problem that has just been drawn every literal is over the variables asked for, so the two
counts differ by the same number from the number of literals and of variables.  All steps before the
covering succeed if the generator has room for what is asked of it.  Then the whole problem is drawn
just when it has as many literals as variables (`covers_iff_spare_suffice`).
-/

namespace TrailSat.Generate

variable {Gen α β : Type} [Generator Gen] {assignment : Option (List Bool)} {values : List Bool}
  {numVars numClauses size : Int} {v : Nat} {state : Tallied} {clauses next : List (List Int)}

/-! ## Counting -/

/-- The variables of all literals, in order. -/
def varsOf (clauses : List (List Int)) : List Nat :=
  clauses.flatten.map Int.natAbs

/-- The variables that occur. -/
def usedVars (clauses : List (List Int)) : Finset Nat :=
  (varsOf clauses).toFinset

/-- The number of literals beyond one for each variable that occurs. -/
def spareCount (clauses : List (List Int)) : Nat :=
  clauses.flatten.length - (usedVars clauses).card

/-- The variables `1 … numVars` that occur nowhere. -/
def missingVars (numVars : Int) (clauses : List (List Int)) : Finset Nat :=
  Finset.Icc 1 numVars.toNat \ usedVars clauses

theorem occurrences_eq_count (clauses : List (List Int)) (v : Nat) :
    occurrences clauses v = (varsOf clauses).count v := by
  rw [occurrences, varsOf, List.count_eq_countP, List.countP_map]
  rfl

theorem mem_usedVars : v ∈ usedVars clauses ↔ occurrences clauses v ≠ 0 := by
  rw [usedVars, List.mem_toFinset, occurrences_eq_count, ← Nat.pos_iff_ne_zero,
    List.count_pos_iff]

theorem card_add_spareCount (clauses : List (List Int)) :
    (usedVars clauses).card + spareCount clauses = clauses.flatten.length := by
  have hle : (usedVars clauses).card ≤ (varsOf clauses).length := List.toFinset_card_le _
  rw [varsOf, List.length_map] at hle
  unfold spareCount
  omega

theorem spareCount_eq_zero_iff : spareCount clauses = 0 ↔ (varsOf clauses).Nodup := by
  have hsum := card_add_spareCount clauses
  have hlength : (varsOf clauses).length = clauses.flatten.length := List.length_map _
  constructor
  · intro hzero
    have hcard : (varsOf clauses).dedup.length = (varsOf clauses).length := by
      rw [← List.card_toFinset, ← usedVars]
      omega
    exact List.dedup_eq_self.1 ((List.dedup_sublist _).eq_of_length hcard)
  · intro hnodup
    have hcard : (usedVars clauses).card = (varsOf clauses).length :=
      List.toFinset_card_of_nodup hnodup
    omega

/-- There is a spare place unless every variable occurs at most once. -/
theorem sparePlaces_eq_nil_iff (h : state.UpToDate) :
    state.sparePlaces = [] ↔ spareCount state.clauses = 0 := by
  rw [spareCount_eq_zero_iff, List.nodup_iff_count_le_one]
  constructor
  · intro hnil w
    by_contra hmany
    rw [← occurrences_eq_count, Nat.not_le] at hmany
    have hoccurs : occurrences state.clauses w ≠ 0 := by omega
    obtain ⟨clause, hclause, l, hl, rfl⟩ := occurrences_ne_zero_iff.1 hoccurs
    obtain ⟨i, hi⟩ := List.getElem?_of_mem hclause
    obtain ⟨k, hk⟩ := List.getElem?_of_mem hl
    rw [h.sparePlaces_eq, List.flatMap_eq_nil_iff] at hnil
    have hrow := hnil (clause, i) (List.mem_zipIdx_iff_getElem?.2 hi)
    have hplace := List.filterMap_eq_nil_iff.1 hrow (l, k) (List.mem_zipIdx_iff_getElem?.2 hk)
    simp [hmany] at hplace
  · intro hcount
    rw [List.eq_nil_iff_forall_not_mem]
    intro place hplace
    obtain ⟨clause, old, -, -, hspare⟩ := h.exists_of_mem_sparePlaces hplace
    rw [occurrences_eq_count] at hspare
    exact absurd (hcount _) (Nat.not_le.2 hspare)

/-! ## What a patch uses up -/

/-- A patch replaces one of several occurrences of some variable. -/
theorem Patch.exists_perm (h : Patch assignment v clauses next) :
    ∃ w others, w ∈ others ∧ (varsOf clauses).Perm (w :: others) ∧
      (varsOf next).Perm (v :: others) := by
  cases h with
  | replace before behind front back old new hspare hvar _ =>
      let others := varsOf (before ++ (front ++ back) :: behind)
      have hperm (l : Int) :
          (varsOf (before ++ (front ++ l :: back) :: behind)).Perm (l.natAbs :: others) := by
        simp only [varsOf, others, List.flatten_append, List.flatten_cons, List.map_append,
          List.map_cons, List.append_assoc, List.cons_append]
        rw [← List.append_assoc, ← List.append_assoc]
        exact List.perm_middle
      refine ⟨old.natAbs, others, ?_, hperm old, hvar ▸ hperm new⟩
      rw [occurrences_eq_count, (hperm old).count_eq, List.count_cons_self] at hspare
      exact List.count_pos_iff.1 (by omega)

theorem Patch.usedVars_eq (h : Patch assignment v clauses next) :
    usedVars next = insert v (usedVars clauses) := by
  obtain ⟨w, others, hw, hold, hnew⟩ := h.exists_perm
  have hused : usedVars clauses = others.toFinset := by
    rw [usedVars, List.toFinset_eq_of_perm _ _ hold, List.toFinset_cons,
      Finset.insert_eq_self.2 (List.mem_toFinset.2 hw)]
  rw [hused, usedVars, List.toFinset_eq_of_perm _ _ hnew, List.toFinset_cons]

/-- **Covering a variable uses up one spare literal**, whichever it is. -/
theorem Patch.spareCount_eq (h : Patch assignment v clauses next)
    (habsent : v ∉ usedVars clauses) : spareCount next + 1 = spareCount clauses := by
  obtain ⟨w, others, -, hold, hnew⟩ := h.exists_perm
  have hlength : next.flatten.length = clauses.flatten.length := by
    have hold' := hold.length_eq
    have hnew' := hnew.length_eq
    simp only [varsOf, List.length_map, List.length_cons] at hold' hnew'
    omega
  have hcard : (usedVars next).card = (usedVars clauses).card + 1 := by
    rw [h.usedVars_eq, Finset.card_insert_of_notMem habsent]
  have hbefore := card_add_spareCount clauses
  have hafter := card_add_spareCount next
  omega

/-! ## Covering the variables -/

theorem coverVar_of_not_spare (hstate : state.UpToDate) (h : spareCount state.clauses = 0) :
    (coverVar assignment state v : StateM Gen _) = pure (.error .noSpareLiteral) := by
  have hnil := (sparePlaces_eq_nil_iff hstate).2 h
  simp only [coverVar, hnil, List.isEmpty_nil, if_true]

/-- The sign of a new literal can always be told. -/
theorem exists_of_newSign (hv : 1 ≤ v) (hvalues : ∀ values, assignment = some values →
    v ≤ values.length) (gen : Gen) :
    ∃ positive after, (newSign assignment v).run gen = (.ok positive, after) := by
  unfold newSign
  cases assignment with
  | none => exact ⟨_, _, rfl⟩
  | some values =>
      have hlt : v - 1 < values.length := by
        have hle := hvalues values rfl
        omega
      simp only [List.getElem?_eq_getElem hlt]
      exact ⟨_, _, rfl⟩

/-- Whatever is drawn, a variable is covered as long as there is a spare literal. -/
theorem exists_of_coverVar [LawfulGenerator Gen] (hstate : state.UpToDate)
    (h : spareCount state.clauses ≠ 0) (hv : 1 ≤ v) (habsent : occurrences state.clauses v = 0)
    (hvalues : ∀ values, assignment = some values → v ≤ values.length) (gen : Gen) :
    ∃ (next : Tallied) (after : Gen),
      (coverVar assignment state v).run gen = (.ok next, after) ∧
      Patch assignment v state.clauses next.clauses ∧ next.UpToDate := by
  have hplaces : state.sparePlaces.isEmpty = false := by
    rw [List.isEmpty_eq_false_iff]
    exact fun hnil => h ((sparePlaces_eq_nil_iff hstate).1 hnil)
  obtain ⟨index, mid, hindex⟩ : ∃ index mid,
      StateT.run (Generator.below state.sparePlaces.length : StateM Gen Nat) gen = (index, mid) :=
    ⟨_, _, rfl⟩
  obtain ⟨positive, after, hsign⟩ := exists_of_newSign hv hvalues mid
  obtain ⟨next, hrun⟩ : ∃ next,
      (coverVar assignment state v).run gen = (.ok next, after) := by
    unfold coverVar
    simp only [hplaces, Bool.false_eq_true, if_false]
    rw [run_bind_of_run hindex, run_bind_of_run hsign]
    exact ⟨_, rfl⟩
  have hpatched := patch_of_coverVar hstate hv habsent ⟨gen, congrArg Prod.fst hrun⟩
  exact ⟨next, after, hrun, hpatched⟩

/-- The variables that are missing among `count` of them from `v` on. -/
def missingFrom (v count : Nat) (clauses : List (List Int)) : Finset Nat :=
  Finset.Ico v (v + count) \ usedVars clauses

theorem missingFrom_succ (v count : Nat) (clauses : List (List Int)) :
    missingFrom v (count + 1) clauses = insert v (Finset.Ico (v + 1) (v + 1 + count)) \
      usedVars clauses := by
  have hnext : v + 1 + count = v + (count + 1) := by omega
  rw [missingFrom, hnext, Finset.insert_Ico_add_one_left_eq_Ico (by omega)]

/-- After a patch one variable less is missing. -/
theorem Patch.card_missingFrom {count : Nat} (h : Patch assignment v clauses next)
    (habsent : v ∉ usedVars clauses) :
    (missingFrom v (count + 1) clauses).card = (missingFrom (v + 1) count next).card + 1 := by
  have hlater : missingFrom (v + 1) count next = missingFrom (v + 1) count clauses := by
    rw [missingFrom, missingFrom, h.usedVars_eq, Finset.sdiff_insert_of_notMem (by simp)]
  have hfresh : v ∉ missingFrom (v + 1) count clauses := by simp [missingFrom]
  rw [missingFrom_succ, Finset.insert_sdiff_of_notMem _ habsent, ← missingFrom, hlater,
    Finset.card_insert_of_notMem hfresh]

/-- **Covering fails just when more variables are missing than literals can be spared.**  Each patch
takes one off both counts, and the variables that occur already change neither. -/
theorem failure_of_coverFrom [LawfulGenerator Gen] {count : Nat} (hstate : state.UpToDate)
    (hv : 1 ≤ v)
    (hvalues : ∀ values, assignment = some values → v + count ≤ values.length + 1) (gen : Gen) :
    ((coverFrom assignment v count state).run gen).1.failure =
      if (missingFrom v count state.clauses).card ≤ spareCount state.clauses then none
      else some .noSpareLiteral := by
  induction count generalizing v state gen with
  | zero =>
      have hnone : missingFrom v 0 state.clauses = ∅ := by simp [missingFrom]
      rw [hnone, Finset.card_empty, if_pos (Nat.zero_le _)]
      rfl
  | succ count ih =>
      have hlater : ∀ values, assignment = some values → v + 1 + count ≤ values.length + 1 := by
        intro values hvalue
        have hle := hvalues values hvalue
        omega
      unfold coverFrom
      by_cases hoccurs : occurrences state.clauses v ≠ 0
      · -- no patch is made, and this variable is not among the missing ones
        rw [if_pos (hstate.contains_iff.2 hoccurs), ih hstate (by omega) hlater, missingFrom_succ,
          Finset.insert_sdiff_of_mem _ (mem_usedVars.2 hoccurs), missingFrom]
      · have habsent : v ∉ usedVars state.clauses := fun h => hoccurs (mem_usedVars.1 h)
        rw [if_neg fun hentry => hoccurs (hstate.contains_iff.1 hentry)]
        by_cases hspare : spareCount state.clauses = 0
        · -- this variable alone is more than can be covered
          have hmissing : v ∈ missingFrom v (count + 1) state.clauses := by
            simp [missingFrom, habsent]
          have hpos := Finset.card_pos.2 ⟨v, hmissing⟩
          rw [coverVar_of_not_spare hstate hspare, if_neg (by omega)]
          rfl
        · -- a patch is made, whichever place is drawn, and both counts go down by one
          have hvalue : ∀ values, assignment = some values → v ≤ values.length := by
            intro values hsome
            have hle := hvalues values hsome
            omega
          obtain ⟨next, after, hrun, hpatch, hnext⟩ :=
            exists_of_coverVar hstate hspare hv (not_not.1 hoccurs) hvalue gen
          have hmissing : (missingFrom v (count + 1) state.clauses).card = _ :=
            hpatch.card_missingFrom habsent
          have hspared := hpatch.spareCount_eq habsent
          rw [run_bind_of_run hrun]
          change ((coverFrom assignment (v + 1) count next).run after).1.failure = _
          rw [ih hnext (by omega) hlater, hmissing, ← hspared]
          simp only [Nat.add_le_add_iff_right]

theorem failure_of_cover [LawfulGenerator Gen]
    (hvalues : ∀ values, assignment = some values → numVars ≤ values.length) (gen : Gen) :
    ((cover assignment numVars clauses).run gen).1.failure =
      if (missingVars numVars clauses).card ≤ spareCount clauses then none
      else some .noSpareLiteral := by
  have hmissing : missingFrom 1 numVars.toNat clauses = missingVars numVars clauses := by
    unfold missingFrom missingVars
    rw [Nat.add_comm]
    rfl
  rw [cover, failure_of_coverFrom (upToDate_ofClauses clauses) (Nat.le_refl 1) ?_ gen]
  · rw [← hmissing]
    rfl
  · intro values hvalue
    have hle := hvalues values hvalue
    omega

/-! ## What is sure to come -/

/-- Whatever is drawn, the sampler ends in the given way. -/
def Always (Ends : Except SamplingError α → Prop) (x : Sampler Gen α) : Prop :=
  ∀ gen : Gen, Ends (x.run.run gen).1

/-- Sampling succeeds whatever is drawn. -/
def Succeeds (x : Sampler Gen α) : Prop :=
  Always (fun outcome => ∃ a, outcome = .ok a) x

/-- Sampling fails in the same way whatever is drawn. -/
def Fails (e : SamplingError) (x : Sampler Gen α) : Prop :=
  Always (fun outcome => outcome = .error e) x

/-- Sampling succeeds if there is enough, and otherwise fails for lack of a spare literal. -/
def Settled (enough : Prop) (outcome : Except SamplingError α) : Prop :=
  (enough → ∃ a, outcome = .ok a) ∧ (¬enough → outcome = .error .noSpareLiteral)

section Outcomes

variable {Ends : Except SamplingError β → Prop} {enough : Prop} {e : SamplingError}
  {x : Sampler Gen α} {f : α → Sampler Gen β}

omit [Generator Gen]

theorem Always.of_bind (hx : Succeeds x) (hf : ∀ a, Yields x a → Always Ends (f a)) :
    Always Ends (x >>= f) := by
  intro gen
  obtain ⟨a, ha⟩ := hx gen
  have hrun : x.run.run gen = (.ok a, (x.run.run gen).2) := Prod.ext ha rfl
  rw [run_bind_of_ok hrun]
  exact hf a ⟨gen, _, hrun⟩ _

theorem Always.of_check {c : Prop} [Decidable c] {f : PUnit → Sampler Gen β}
    {x : Sampler Gen β} (hc : ¬c) (hx : Always Ends x) :
    Always Ends (if c then throw e >>= f else x) := by
  rwa [if_neg hc]

theorem succeeds_pure (a : α) : Succeeds (pure a : Sampler Gen α) :=
  fun _ => ⟨a, rfl⟩

theorem succeeds_liftM (x : StateM Gen α) : Succeeds (liftM x : Sampler Gen α) :=
  fun gen => ⟨(x.run gen).1, rfl⟩

/-- A first step that fails leaves nothing to the second one. -/
theorem Fails.bind (hx : Fails e x) (f : α → Sampler Gen β) : Fails e (x >>= f) := by
  intro gen
  have hrun : x.run.run gen = (.error e, (x.run.run gen).2) := Prod.ext (hx gen) rfl
  rw [ExceptT.run_bind, StateT.run_bind, hrun]
  rfl

theorem Fails.of_check {c : Prop} [Decidable c] {f : PUnit → Sampler Gen α} (hc : c) :
    Fails e (if c then throw e >>= f else x) := by
  rw [if_pos hc]
  exact fun _ => rfl

/-- A last step that succeeds does not change how sampling ends. -/
theorem settled_bind (hx : Always (Settled enough) x) (hf : ∀ a, Succeeds (f a)) :
    Always (Settled enough) (x >>= f) := by
  intro gen
  obtain ⟨hok, herror⟩ := hx gen
  constructor
  · intro henough
    obtain ⟨a, ha⟩ := hok henough
    have hrun : x.run.run gen = (.ok a, (x.run.run gen).2) := Prod.ext ha rfl
    rw [run_bind_of_ok hrun]
    exact hf a _
  · intro hnot
    have hrun : x.run.run gen = (.error .noSpareLiteral, (x.run.run gen).2) :=
      Prod.ext (herror hnot) rfl
    rw [ExceptT.run_bind, StateT.run_bind, hrun]
    rfl

theorem succeeds_drawEach {draw : Sampler Gen α} (h : Succeeds draw) (count : Nat) :
    Succeeds (drawEach draw count) := by
  induction count with
  | zero => exact succeeds_pure []
  | succ count ih => exact .of_bind h fun first _ => .of_bind ih fun rest _ => succeeds_pure _

theorem fails_drawEach {draw : Sampler Gen α} (h : Fails e draw) {count : Nat}
    (hcount : count ≠ 0) : Fails e (drawEach draw count) := by
  cases count with
  | zero => exact absurd rfl hcount
  | succ count => exact h.bind _

end Outcomes

/-! ## Drawing with enough room -/

theorem succeeds_drawRow (h : 0 ≤ size) (hroom : size < Generator.rowRoom Gen) :
    Succeeds (drawRow size : Sampler Gen _) :=
  .of_check (by omega) (.of_check (by omega) (succeeds_liftM _))

theorem fails_drawRow (h : 0 ≤ size) (hroom : Generator.rowRoom Gen ≤ size) :
    Fails .noRoom (drawRow size : Sampler Gen _) :=
  Always.of_check (by omega) (Fails.of_check hroom)

theorem succeeds_choose (hsize : 1 ≤ size) (hfits : size ≤ numVars)
    (hroom : numVars < Generator.choiceRoom Gen) : Succeeds (choose numVars size : Sampler Gen _) :=
  .of_check (by omega) (.of_check (by omega) (.of_check (by omega) (.of_check (by omega)
    (succeeds_liftM _))))

theorem fails_choose (hsize : 1 ≤ size) (hfits : size ≤ numVars)
    (hroom : Generator.choiceRoom Gen ≤ numVars) :
    Fails .noRoom (choose numVars size : Sampler Gen _) :=
  Always.of_check (by omega) (.of_check (by omega) (.of_check (by omega) (Fails.of_check hroom)))

theorem succeeds_plantClause (hsize : 1 ≤ size) (hfits : size ≤ values.length)
    (hroom : (values.length : Int) < Generator.choiceRoom Gen) :
    Succeeds (plantClause values size : Sampler Gen _) :=
  .of_bind (succeeds_choose hsize hfits hroom) fun _ _ => succeeds_liftM _

/-- There is room for the choice of the variables of a uniform clause and for their signs. -/
def HasRoom (Gen : Type) [Generator Gen] (numVars size : Int) : Prop :=
  numVars < Generator.choiceRoom Gen ∧ size < Generator.rowRoom Gen

theorem succeeds_uniformClause (hsize : 1 ≤ size) (hfits : size ≤ numVars)
    (hroom : HasRoom Gen numVars size) : Succeeds (uniformClause numVars size : Sampler Gen _) :=
  .of_bind (succeeds_choose hsize hfits hroom.1) fun _ _ =>
    .of_bind (succeeds_drawRow (by omega) hroom.2) fun _ _ => succeeds_pure _

theorem fails_uniformClause (hsize : 1 ≤ size) (hfits : size ≤ numVars)
    (hroom : ¬HasRoom Gen numVars size) :
    Fails .noRoom (uniformClause numVars size : Sampler Gen _) := by
  by_cases hchoice : numVars < Generator.choiceRoom Gen
  · -- the variables can be chosen, but their signs have no room
    have hrow : Generator.rowRoom Gen ≤ size := Int.not_lt.1 fun hlt => hroom ⟨hchoice, hlt⟩
    exact Always.of_bind (succeeds_choose hsize hfits hchoice) fun _ _ =>
      (fails_drawRow (by omega) hrow).bind _
  · exact (fails_choose hsize hfits (Int.not_lt.1 hchoice)).bind _

/-! ## Whole problems -/

theorem settled_coverAll [LawfulGenerator Gen]
    (hvalues : ∀ values, assignment = some values → numVars ≤ values.length) :
    Always (Settled ((missingVars numVars clauses).card ≤ spareCount clauses))
      (coverAll assignment numVars clauses : Sampler Gen _) := by
  intro gen
  have hfailure : ((cover assignment numVars clauses).run gen).1.failure = _ :=
    failure_of_cover hvalues gen
  rcases hcover : (cover assignment numVars clauses).run gen with ⟨covered, after⟩
  rw [hcover] at hfailure
  have hrun : (coverAll assignment numVars clauses).run.run gen = _ :=
    run_bind_of_ok (run_liftM hcover)
  rw [hrun, hfailure]
  constructor
  · intro henough
    rw [if_pos henough]
    exact ⟨_, rfl⟩
  · intro hnot
    rw [if_neg hnot]
    rfl

/-- Clauses over the variables `1 … numVars` lack no more variables than they have literals to spare
when they have as many literals as there are variables. -/
theorem card_missingVars_le_iff (hclauses : ∀ clause ∈ clauses, HasShape numVars size clause) :
    (missingVars numVars clauses).card ≤ spareCount clauses ↔ numVars ≤ clauses.length * size := by
  have hsum := card_add_spareCount clauses
  have hsub : usedVars clauses ⊆ Finset.Icc 1 numVars.toNat := by
    intro w hw
    obtain ⟨clause, hclause, l, hl, rfl⟩ := occurrences_ne_zero_iff.1 (mem_usedVars.1 hw)
    have hrange := (hclauses clause hclause).inRange l hl
    rw [Finset.mem_Icc]
    omega
  have hmissing : (missingVars numVars clauses).card + (usedVars clauses).card = numVars.toNat := by
    have hcard := Finset.card_sdiff_add_card_eq_card hsub
    rwa [Nat.card_Icc, Nat.add_sub_cancel] at hcard
  have htotal : (clauses.flatten.length : Int) = clauses.length * size := by
    clear hsum hsub hmissing
    induction clauses with
    | nil => simp
    | cons clause rest ih =>
        obtain ⟨hclause, hrest⟩ := List.forall_mem_cons.1 hclauses
        have hsize := hclause.length_eq
        rw [List.flatten_cons, List.length_append, List.length_cons, Int.natCast_add, ih hrest,
          hsize, Int.natCast_add, Int.add_mul]
        omega
  omega

theorem settled_drawn [LawfulGenerator Gen] (hcount : clauses.length = numClauses)
    (hclauses : ∀ clause ∈ clauses, HasShape numVars size clause)
    (hvalues : ∀ values, assignment = some values → numVars ≤ values.length) :
    Always (Settled (numVars ≤ numClauses * size))
      (coverAll assignment numVars clauses : Sampler Gen _) := by
  have henough := card_missingVars_le_iff hclauses
  rw [hcount] at henough
  rw [← henough]
  exact settled_coverAll hvalues

theorem settled_plantProblem [LawfulGenerator Gen] (hcount : 0 ≤ numClauses) (hsize : 1 ≤ size)
    (hfits : size ≤ numVars) (hroom : numVars < Generator.rowRoom Gen) :
    Always (Settled (numVars ≤ numClauses * size))
      (plantProblem numVars numClauses size : Sampler Gen _) := by
  have hchoice : Generator.rowRoom Gen ≤ Generator.choiceRoom Gen :=
    LawfulGenerator.rowRoom_le_choiceRoom
  refine .of_check (by omega)
    (.of_bind (succeeds_drawRow (by omega) hroom) fun values hvalues => ?_)
  obtain ⟨hrow, -⟩ := length_of_drawRow hvalues
  refine .of_bind (succeeds_drawEach (succeeds_plantClause hsize (by omega) (by omega)) _)
    fun clauses hclauses => ?_
  obtain ⟨hlength, hdrawn⟩ := length_of_drawEach hclauses
  refine settled_bind (settled_drawn (by omega) (fun clause hclause => ?_) ?_)
    fun _ => succeeds_pure _
  · rw [← hrow]
    exact (regular_of_plantClause hsize (hdrawn clause hclause)).toHasShape
  · rintro _ ⟨⟩
    exact Int.le_of_eq hrow.symm

theorem fails_plantProblem (hsize : 1 ≤ size) (hfits : size ≤ numVars)
    (hroom : Generator.rowRoom Gen ≤ numVars) :
    Fails .noRoom (plantProblem numVars numClauses size : Sampler Gen _) :=
  Always.of_check (by omega) ((fails_drawRow (by omega) hroom).bind _)

/-- What is left to do when the clauses of a uniform problem can be drawn. -/
theorem settled_uniformProblem [LawfulGenerator Gen] (hcount : 0 ≤ numClauses)
    (hfits : size ≤ numVars)
    (hdraw : Succeeds (drawEach (uniformClause numVars size) numClauses.toNat : Sampler Gen _)) :
    Always (Settled (numVars ≤ numClauses * size))
      (uniformProblem numVars numClauses size true : Sampler Gen _) := by
  refine .of_check (by omega) (.of_bind hdraw fun clauses hclauses => ?_)
  obtain ⟨hlength, hdrawn⟩ := length_of_drawEach hclauses
  rw [if_pos rfl]
  exact settled_drawn (by omega)
    (fun clause hclause => (regular_of_uniformClause (hdrawn clause hclause)).toHasShape) nofun

/-- **Covering succeeds just when there are enough literals to spare, whatever is drawn.**  For
problems this means that they have at least as many literals as variables.  Only a generator without
room for what is asked of it, which then gives no values at all, ends them in another way; a uniform
problem without clauses asks it for nothing. -/
theorem covers_iff_spare_suffice [LawfulGenerator Gen] (numVars : Int) (gen : Gen) :
    (∀ assignment clauses, (∀ values, assignment = some values → numVars ≤ values.length) →
      let failure := ((cover assignment numVars clauses).run gen).1.failure
      (failure = some .noSpareLiteral ↔
        spareCount clauses < (missingVars numVars clauses).card) ∧
      (failure = none ↔ (missingVars numVars clauses).card ≤ spareCount clauses)) ∧
    ∀ numClauses size, 0 ≤ numClauses → 1 ≤ size → size ≤ numVars →
      let planted := ((plantProblem numVars numClauses size).run.run gen).1
      let uniform := ((uniformProblem numVars numClauses size true).run.run gen).1
      (numVars < Generator.rowRoom Gen → Settled (numVars ≤ numClauses * size) planted) ∧
      (Generator.rowRoom Gen ≤ numVars → planted = .error .noRoom) ∧
      (numClauses = 0 ∨ HasRoom Gen numVars size →
        Settled (numVars ≤ numClauses * size) uniform) ∧
      (numClauses ≠ 0 ∧ ¬HasRoom Gen numVars size → uniform = .error .noRoom) := by
  refine ⟨fun assignment clauses hvalues => ?_, fun numClauses size hcount hsize hfits => ?_⟩
  · intro failure
    have hfailure : failure = _ := failure_of_cover hvalues gen
    rw [hfailure]
    by_cases henough : (missingVars numVars clauses).card ≤ spareCount clauses
    · simp [henough]
    · simp [henough, Nat.lt_of_not_le henough]
  · refine ⟨fun hroom => settled_plantProblem hcount hsize hfits hroom gen,
      fun hroom => fails_plantProblem hsize hfits hroom gen, fun hroom => ?_, fun hroom => ?_⟩
    · refine settled_uniformProblem hcount hfits ?_ gen
      rcases hroom with rfl | hroom
      · exact succeeds_pure []
      · exact succeeds_drawEach (succeeds_uniformClause hsize hfits hroom) _
    · have hclause := fails_uniformClause hsize hfits hroom.2
      have hdraw : Fails .noRoom
          (drawEach (uniformClause numVars size) numClauses.toNat : Sampler Gen _) :=
        fails_drawEach hclause (by omega)
      exact Always.of_check (by omega) (hdraw.bind _) gen

/-- Both variables occur, and three of the five literals can be spared: enough for three more
variables, but not for four.  Two clauses of two literals have room for three variables, and one has
not.  For more variables than can be counted there are no values. -/
theorem covers_iff_spare_suffice_of_repeats :
    let clauses : List (List Int) := [[1, -2], [2, 1, -1]]
    let draws := Draws.cycle [7, 1, 4]
    ((cover (some [true, false, true, true, false]) 5 clauses).run draws).1.failure = none ∧
      ((cover none 6 clauses).run draws).1.failure = some .noSpareLiteral ∧
      (∃ planted, ((plantProblem 3 2 2).run.run draws).1 = .ok planted) ∧
      ((plantProblem Value.indexBound 2 2).run.run draws).1 = .error .noRoom ∧
      ((uniformProblem 3 1 2 true).run.run draws).1 = .error .noSpareLiteral ∧
      ((uniformProblem Value.indexBound 1 2 true).run.run draws).1 = .error .noRoom := by
  intro clauses draws
  have hspare : spareCount clauses = 3 := by decide
  have hfive : (missingVars 5 clauses).card = 3 := by decide
  have hsix : (missingVars 6 clauses).card = 4 := by decide
  have hvalues : ∀ values, some [true, false, true, true, false] = some values →
      (5 : Int) ≤ values.length := by
    rintro _ ⟨⟩
    decide
  obtain ⟨-, hcovered⟩ := (covers_iff_spare_suffice 5 draws).1 _ clauses hvalues
  obtain ⟨hfailed, -⟩ := (covers_iff_spare_suffice 6 draws).1 none clauses nofun
  obtain ⟨hplanted, -⟩ :=
    (covers_iff_spare_suffice 3 draws).2 2 2 (by decide) (by decide) (by decide)
  obtain ⟨-, -, huniform, -⟩ :=
    (covers_iff_spare_suffice 3 draws).2 1 2 (by decide) (by decide) (by decide)
  obtain ⟨-, hplantedMany, -, -⟩ :=
    (covers_iff_spare_suffice Value.indexBound draws).2 2 2 (by decide) (by decide) (by decide)
  obtain ⟨-, -, -, huniformMany⟩ :=
    (covers_iff_spare_suffice Value.indexBound draws).2 1 2 (by decide) (by decide) (by decide)
  have hroom : HasRoom Draws 3 2 := ⟨by decide, by decide⟩
  have hfull : ¬HasRoom Draws Value.indexBound 2 := fun h => absurd h.1 (by decide)
  exact ⟨hcovered.2 (by omega), hfailed.2 (by omega), (hplanted (by decide)).1 (by decide),
    hplantedMany (by decide), (huniform (.inr hroom)).2 (by decide),
    huniformMany ⟨by decide, hfull⟩⟩

end TrailSat.Generate
