import TrailSat.Proofs.Generate.Spare

/-!
# Every satisfied clause can be planted

A planted clause is over distinct variables and holds under the assignment.  Conversely each such
clause comes from some words (`yields_plantClause_iff`): the swaps in the pool reach every order of
every set of variables, and the last literal is forced only if the clause would not hold otherwise.

The words are put together from those for the single draws.  A row of words leads to a value
(`LeadsTo`) if every stream that goes on with it gives the value and uses no other words.  So the
rows for two steps stand one after the other (`LeadsTo.bind`).  A word can point at each place of a
pool, because the pool has no more places than there are words.
-/

namespace TrailSat.Generate

variable {α β : Type} {values : List Bool} {size : Int} {clause : List Int} {holds : Bool}
  {draws : Draws} {row : List UInt32}

/-! ## Words to come -/

/-- The stream after some more words. -/
def Draws.skip (draws : Draws) (count : Nat) : Draws :=
  { draws with used := draws.used + count }

/-- The stream goes on with these words. -/
def Draws.GoesOn (draws : Draws) : List UInt32 → Prop
  | [] => True
  | word :: row => draws.words draws.used = word ∧ (draws.skip 1).GoesOn row

theorem Draws.skip_skip (draws : Draws) (m n : Nat) :
    (draws.skip m).skip n = draws.skip (m + n) := by
  rw [Draws.skip, Draws.skip, Draws.skip, Nat.add_assoc]

theorem Draws.goesOn_append {row' : List UInt32} :
    draws.GoesOn (row ++ row') ↔ draws.GoesOn row ∧ (draws.skip row.length).GoesOn row' := by
  induction row generalizing draws with
  | nil => exact (and_iff_right trivial).symm
  | cons word row ih =>
      rw [List.cons_append, GoesOn, GoesOn, ih, and_assoc, skip_skip, List.length_cons,
        Nat.add_comm 1]

theorem Draws.goesOn_of_words
    (h : ∀ i < row.length, draws.words (draws.used + i) = row.getD i 0) : draws.GoesOn row := by
  induction row generalizing draws with
  | nil => trivial
  | cons word row ih =>
      refine ⟨h 0 (Nat.succ_pos _), ih fun i hi => ?_⟩
      have hi' : i + 1 < (word :: row).length := Nat.succ_lt_succ hi
      rw [skip, Nat.add_assoc, Nat.add_comm 1, h (i + 1) hi', List.getD_cons_succ]

theorem Draws.goesOn_cycle (row : List UInt32) : (Draws.cycle row).GoesOn row := by
  refine goesOn_of_words fun i hi => ?_
  have hindex : (Draws.cycle row).used + i = i := Nat.zero_add i
  rw [hindex]
  exact congrArg (row.getD · 0) (Nat.mod_eq_of_lt hi)

/-! ## Words that lead to a value -/

/-- Whatever comes after these words, they lead to the value and no others are used. -/
def LeadsTo (x : StateM Draws α) (row : List UInt32) (a : α) : Prop :=
  ∀ draws : Draws, draws.GoesOn row → x.run draws = (a, draws.skip row.length)

theorem leadsTo_pure (a : α) : LeadsTo (pure a) [] a :=
  fun _ _ => rfl

theorem leadsTo_nextWord (word : UInt32) : LeadsTo nextWord [word] word.toNat := by
  rintro draws ⟨rfl, -⟩
  rfl

theorem LeadsTo.bind {x : StateM Draws α} {f : α → StateM Draws β} {row row' : List UInt32}
    {a : α} {b : β} (hx : LeadsTo x row a) (hf : LeadsTo (f a) row' b) :
    LeadsTo (x >>= f) (row ++ row') b := by
  intro draws hdraws
  obtain ⟨hrow, hrow'⟩ := Draws.goesOn_append.1 hdraws
  rw [run_bind_of_run (hx draws hrow), hf _ hrow', Draws.skip_skip, List.length_append]

theorem LeadsTo.gives {x : StateM Draws α} {a : α} (h : LeadsTo x row a) : Gives x a :=
  ⟨Draws.cycle row, congrArg Prod.fst (h _ (Draws.goesOn_cycle row))⟩

theorem leadsTo_coinOfWord (coin : Bool) :
    LeadsTo coinOfWord [if coin then 0 else 0x80000000] coin := by
  let word : UInt32 := if coin then 0 else 0x80000000
  have hcoin : decide (word.toNat < 0x80000000) = coin := by
    cases coin <;> rfl
  have hflip : LeadsTo coinOfWord [word] (decide (word.toNat < 0x80000000)) :=
    (leadsTo_nextWord word).bind (leadsTo_pure _)
  rwa [hcoin] at hflip

/-- A word that is below the bound is its own remainder. -/
theorem leadsTo_wordBelow {n bound : Nat} (hlt : n < bound) (hroom : bound ≤ 2 ^ 32) :
    LeadsTo (wordBelow bound) [UInt32.ofNat n] n := by
  have hfits : n < UInt32.size := Nat.lt_of_lt_of_le hlt hroom
  have hword : (UInt32.ofNat n).toNat % bound = n := by
    rw [UInt32.toNat_ofNat_of_lt' hfits, Nat.mod_eq_of_lt hlt]
  have hbelow : LeadsTo (wordBelow bound) [UInt32.ofNat n] ((UInt32.ofNat n).toNat % bound) :=
    (leadsTo_nextWord _).bind (leadsTo_pure _)
  rwa [hword] at hbelow

/-! ## Choices -/

/-- Any item can be taken out of a pool. -/
theorem exists_takeOut {first item : Nat} {rest : List Nat} (h : item ∈ first :: rest) :
    ∃ index ≤ rest.length, (takeOut first rest index).1 = item := by
  obtain ⟨index, hindex, rfl⟩ := List.getElem_of_mem h
  refine ⟨index, Nat.le_of_lt_succ hindex, ?_⟩
  cases index with
  | zero => rfl
  | succ index => exact List.getD_eq_getElem rest first (Nat.lt_of_succ_lt_succ hindex)

/-- Any items of a pool can be taken out of it, in any order. -/
theorem exists_leadsTo_takeItems {items pool : List Nat} (hitems : items.Subperm pool)
    (hroom : pool.length ≤ 2 ^ 32) :
    ∃ row, LeadsTo (takeItems items.length pool) row items := by
  induction items generalizing pool with
  | nil => exact ⟨[], leadsTo_pure []⟩
  | cons item items ih =>
      cases pool with
      | nil => exact absurd (hitems.subset List.mem_cons_self) List.not_mem_nil
      | cons first rest =>
          obtain ⟨index, hindex, htaken⟩ := exists_takeOut (hitems.subset List.mem_cons_self)
          have hperm := takeOut_perm first rest hindex
          rw [htaken] at hperm
          have hleft : items.Subperm (takeOut first rest index).2 :=
            (List.subperm_cons item).1 (hitems.trans hperm.symm.subperm)
          have hlength : (takeOut first rest index).2.length = rest.length :=
            Nat.succ.inj hperm.length_eq
          rw [List.length_cons] at hroom
          obtain ⟨row, hrow⟩ := ih hleft (by omega)
          refine ⟨[UInt32.ofNat index] ++ (row ++ []), ?_⟩
          refine (leadsTo_wordBelow (Nat.lt_succ_of_le hindex) hroom).bind ?_
          dsimp only
          rw [← htaken]
          exact hrow.bind (leadsTo_pure _)

/-! ## Literals -/

/-- A literal is made from its variable and from whether it holds. -/
theorem literalFor_holds {l : Int} (hl : 1 ≤ l.natAbs) :
    literalFor (l.natAbs - 1 + 1) (values.getD (l.natAbs - 1) false)
      ((valuationOf values).holds l) = l := by
  rw [Nat.sub_add_cancel hl, literalFor, Valuation.holds, valuationOf]
  by_cases hsign : 0 < l
  · rw [if_pos hsign, if_pos (beq_self_eq_true _)]
    omega
  · rw [if_neg hsign, if_neg (by simp)]
    omega

/-- A clause comes from its variables, if it holds or need not. -/
theorem exists_leadsTo_plantLiterals (hclause : ∀ l ∈ clause, 1 ≤ l.natAbs)
    (hholds : clause ≠ [] →
      holds = true ∨ (valuationOf values).holdsClause clause = true) :
    ∃ row, LeadsTo (plantLiterals values holds (clause.map (·.natAbs - 1))) row clause := by
  induction clause generalizing holds with
  | nil => exact ⟨[], leadsTo_pure []⟩
  | cons l rest ih =>
      let agrees := (valuationOf values).holds l
      -- the coin falls as the literal needs it, and nothing more is forced
      have hforced : ((rest.map (·.natAbs - 1)).isEmpty && !holds) = true → agrees = true := by
        intro h
        rw [Bool.and_eq_true, List.isEmpty_map, List.isEmpty_iff, Bool.not_eq_true'] at h
        obtain ⟨rfl, rfl⟩ := h
        simpa [Valuation.holdsClause] using hholds (List.cons_ne_nil l [])
      have hagrees : (agrees || ((rest.map (·.natAbs - 1)).isEmpty && !holds)) = agrees := by
        rw [Bool.eq_iff_iff, Bool.or_eq_true]
        exact or_iff_left_of_imp hforced
      have hrest : rest ≠ [] →
          (holds || agrees) = true ∨ (valuationOf values).holdsClause rest = true := by
        intro _
        rw [Bool.or_eq_true, or_assoc, ← Bool.or_eq_true agrees]
        exact hholds (List.cons_ne_nil l rest)
      obtain ⟨row, hrow⟩ := ih (fun m hm => hclause m (List.mem_cons_of_mem l hm)) hrest
      have hliteral : literalFor (l.natAbs - 1 + 1) (values.getD (l.natAbs - 1) false) agrees = l :=
        literalFor_holds (hclause l List.mem_cons_self)
      refine ⟨[if agrees then 0 else 0x80000000] ++ (row ++ []), ?_⟩
      refine (leadsTo_coinOfWord agrees).bind ?_
      dsimp only
      rw [hagrees, hliteral]
      exact hrow.bind (leadsTo_pure _)

/-! ## Clauses -/

/-- The variables of a clause, counted from 0, are different numbers. -/
theorem HasShape.subperm_range {numVars : Nat} (h : HasShape numVars size clause) :
    (clause.map (·.natAbs - 1)).Subperm (List.range numVars) := by
  have hnodup : ((clause.map Int.natAbs).map (· - 1)).Nodup := by
    refine List.Nodup.map_on (fun v hv w hw heq => ?_) h.distinct
    obtain ⟨l, hl, rfl⟩ := List.mem_map.1 hv
    obtain ⟨m, hm, rfl⟩ := List.mem_map.1 hw
    have hlow := (h.inRange l hl).1
    have hlow' := (h.inRange m hm).1
    omega
  rw [List.map_map] at hnodup
  refine List.subperm_of_subset hnodup fun v hv => ?_
  obtain ⟨l, hl, rfl⟩ := List.mem_map.1 hv
  obtain ⟨hlow, hhigh⟩ := h.inRange l hl
  exact List.mem_range.2 (by omega)

/-- There are more numbers to choose from than words. -/
theorem lt_choiceRoom_of_le {population : Nat} (h : population ≤ 2 ^ 32) :
    (population : Int) < Generator.choiceRoom Draws := by
  have hlarge : 2 ^ 32 < Generator.choiceRoom Draws := by decide
  omega

/-- No check in front of a planted clause fails, so it is made from the items of a pool. -/
theorem plantClause_eq (hsize : 1 ≤ size) (hfits : size ≤ values.length)
    (hroom : values.length ≤ 2 ^ 32) : (plantClause values size : Sampler Draws _) =
      liftM (takeItems size.toNat (List.range values.length) >>= plantLiterals values false) := by
  have hbound := lt_choiceRoom_of_le hroom
  rw [plantClause, choose, if_neg (by omega), if_neg (by omega), if_neg (by omega),
    if_neg (by omega), liftM_bind, Int.toNat_natCast]
  rfl

/-- What a planted clause should be, some words lead to. -/
theorem yields_plantClause (hsize : 1 ≤ size) (hfits : size ≤ values.length)
    (hroom : values.length ≤ 2 ^ 32) (hshape : HasShape values.length size clause)
    (hholds : (valuationOf values).holdsClause clause = true) :
    Yields (plantClause values size : Sampler Draws _) clause := by
  let vars := clause.map (·.natAbs - 1)
  have hlength : vars.length = size.toNat := by
    have hsizes := hshape.length_eq
    have hmapped : vars.length = clause.length := List.length_map _
    omega
  have hpool : (List.range values.length).length ≤ 2 ^ 32 := by
    rwa [List.length_range]
  obtain ⟨row, hrow⟩ := exists_leadsTo_takeItems hshape.subperm_range hpool
  obtain ⟨row', hrow'⟩ : ∃ row, LeadsTo (plantLiterals values false vars) row clause :=
    exists_leadsTo_plantLiterals (fun l hl => (hshape.inRange l hl).1) fun _ => .inr hholds
  rw [hlength] at hrow
  rw [plantClause_eq hsize hfits hroom]
  exact (hrow.bind hrow').gives.yields

/-- **The planted clauses are the satisfied ones.**  A clause is drawn whatever the words are, and
the clauses that can come are those of the given size, over distinct variables, of which some
literal agrees with the assignment. -/
theorem yields_plantClause_iff (hsize : 1 ≤ size) (hfits : size ≤ values.length)
    (hroom : values.length ≤ 2 ^ 32) :
    Succeeds (plantClause values size : Sampler Draws _) ∧
      ∀ clause, Yields (plantClause values size : Sampler Draws _) clause ↔
        HasShape values.length size clause ∧ (valuationOf values).holdsClause clause = true := by
  refine ⟨succeeds_plantClause hsize hfits (lt_choiceRoom_of_le hroom), fun clause => ?_⟩
  constructor
  · intro h
    have hregular := regular_of_plantClause hsize h
    exact ⟨hregular.toHasShape, hregular.holds values rfl⟩
  · rintro ⟨hshape, hholds⟩
    exact yields_plantClause hsize hfits hroom hshape hholds

/-- Over both variables, either may come first and either literal may fail to agree, but not both
literals. -/
theorem yields_plantClause_iff_of_pair :
    ((1 : Int) ≤ 2 ∧ (2 : Int) ≤ [true, false].length ∧ [true, false].length ≤ 2 ^ 32) ∧
      Succeeds (plantClause [true, false] 2 : Sampler Draws _) ∧
      Yields (plantClause [true, false] 2 : Sampler Draws _) [2, 1] ∧
      Yields (plantClause [true, false] 2 : Sampler Draws _) [-1, -2] ∧
      ¬Yields (plantClause [true, false] 2 : Sampler Draws _) [-1, 2] := by
  have hsize : (1 : Int) ≤ 2 := by decide
  have hfits : (2 : Int) ≤ [true, false].length := by decide
  have hroom : [true, false].length ≤ 2 ^ 32 := by decide
  obtain ⟨hsucceeds, hiff⟩ := yields_plantClause_iff hsize hfits hroom
  refine ⟨⟨hsize, hfits, hroom⟩, hsucceeds, (hiff _).2 ⟨?_, by decide⟩,
    (hiff _).2 ⟨?_, by decide⟩, fun h => ?_⟩
  · exact ⟨by decide, by decide, by decide⟩
  · exact ⟨by decide, by decide, by decide⟩
  · exact absurd ((hiff _).1 h).2 (by decide)

end TrailSat.Generate
