import TrailSat.Proofs.State.Replay

/-!
# What stands where in a reachable state

`State.Layout` spells out the contents of a reachable state.  The trail holds the assigned
variables, each once.  There is one frame more than there are variables on it, and the frame with
index `i` lists the clauses in which the first `i` assignments of the trail make no literal true.

The marks say less than the values do.  When a variable is assigned, its literals are marked in the
clauses of the last frame and nowhere else, so a literal in a clause that had been satisfied by
then stays unmarked although its variable has a value (`Layout.mark_of_dropped`).  For all other
literals the mark is the truth of the literal.

Everything is read off the state along an assignment: the frame with index `i` belongs to the
oldest `i` assignments, and `mark_append` finds the mark of a literal by cutting the list where its
variable stands.
-/

namespace TrailSat

namespace Assignment

/-! ## Cutting an assignment -/

/-- Where the variable with index `i` of the trail stands, `i` assignments come before it. -/
theorem exists_append_of_getElem? {a : Assignment} {i v : Nat}
    (h : (a.map Prod.fst).reverse[i]? = some v) :
    ∃ later value earlier, a = later ++ (v, value) :: earlier ∧ earlier.length = i := by
  rw [← List.map_reverse, List.getElem?_map, Option.map_eq_some_iff] at h
  obtain ⟨⟨w, value⟩, he, rfl⟩ := h
  obtain ⟨hlt, hget⟩ := List.getElem?_eq_some_iff.1 he
  -- cut the assignments where they stand in the order of the trail, then turn the parts round
  have hcut : a.reverse = a.reverse.take i ++ (w, value) :: a.reverse.drop (i + 1) := by
    rw [← hget, ← List.drop_eq_getElem_cons hlt, List.take_append_drop]
  refine ⟨(a.reverse.drop (i + 1)).reverse, value, (a.reverse.take i).reverse, ?_, ?_⟩
  · have hback := congrArg List.reverse hcut
    simpa using hback
  · rw [List.length_reverse, List.length_take, Nat.min_eq_left (Nat.le_of_lt hlt)]

/-- The mark of a literal was made when its variable was assigned. -/
theorem mark_append {F : Formula} {later earlier : Assignment} {value : Bool} {l : Int}
    (h : Proper F (later ++ (l.natAbs, value) :: earlier)) (clause : List Int) :
    mark clause (later ++ (l.natAbs, value) :: earlier) l =
      if satisfies earlier clause then .unset
      else if l = State.literalOf l.natAbs value then .satisfying else .falsified := by
  induction later with
  | nil => rw [List.nil_append, mark, if_pos rfl]
  | cons e rest ih =>
      obtain ⟨-, hfree, hrest⟩ := h
      have hnot : e.1 ∉ (rest ++ (l.natAbs, value) :: earlier).map Prod.fst :=
        value?_eq_none_iff.1 hfree
      have hne : l.natAbs ≠ e.1 := by
        intro heq
        rw [← heq] at hnot
        simp at hnot
      rw [List.cons_append, mark, if_neg hne, ih hrest]

/-! ## Frames -/

theorem pairwise_frame (F : Formula) (a : Assignment) : (a.frame F).Pairwise (· < ·) :=
  List.pairwise_lt_range.filter _

theorem getElem?_savedFrames (F : Formula) {a : Assignment} {i : Nat} (hi : i ≤ a.length) :
    (frame F a :: savedFrames F a)[i]? = some (frame F (a.drop i)) := by
  induction a generalizing i with
  | nil =>
      obtain rfl : i = 0 := by simpa using hi
      rfl
  | cons e earlier ih =>
      cases i with
      | zero => rfl
      | succ i => simpa [savedFrames] using ih (by simpa using hi)

end Assignment

namespace State

/-- The frames from the first to the present one. -/
def frames (s : State) : List (List Nat) :=
  (s.active :: s.saved).reverse

/-- The assigned variables from the first to the last. -/
def order (s : State) : List Nat :=
  s.trail.reverse

/-- The mark of the literal at a place of a clause. -/
def markAt (s : State) (index place : Nat) : Option Mark :=
  s.marks[index]?.bind fun row => row[place]?

/-- The variable of a literal has the value that makes the literal true. -/
def IsTrue (F : Formula) (s : State) (l : Int) : Prop :=
  s.value F l.natAbs = .ok (some (decide (0 < l)))

/-- The variable of a literal has the value that makes the literal false. -/
def IsFalse (F : Formula) (s : State) (l : Int) : Prop :=
  s.value F l.natAbs = .ok (some (decide (l < 0)))

/-- What stands where in a state. -/
structure Layout (F : Formula) (s : State) : Prop where
  /-- There is an entry for every variable. -/
  length_values : s.values.length = F.numVars
  /-- No variable is on the trail twice. -/
  nodup_trail : s.trail.Nodup
  /-- The variables on the trail are those with a value. -/
  mem_trail : ∀ v, v ∈ s.trail ↔ ∃ value, s.value F v = .ok (some value)
  /-- There is a frame before the first assignment and after each of them. -/
  length_frames : s.frames.length = s.trail.length + 1
  /-- The clauses of a frame stand in order. -/
  pairwise_frame : ∀ frame ∈ s.frames, frame.Pairwise (· < ·)
  /-- The frame with index `i` holds the clauses in which the first `i` variables on the trail make
  no literal true. -/
  mem_frame : ∀ (i : Nat) frame, s.frames[i]? = some frame → ∀ index,
    index ∈ frame ↔ index < F.numClauses ∧
      ∀ l ∈ F.clause index, ¬(l.natAbs ∈ s.order.take i ∧ s.IsTrue F l)
  /-- There is a mark for every literal. -/
  shape_marks : s.marks.map List.length = F.clauses.map List.length
  /-- The literals of a variable without a value are unmarked. -/
  mark_of_free : ∀ (index : Nat) clause (place : Nat) l, F.clauses[index]? = some clause →
    clause[place]? = some l → s.value F l.natAbs = .ok none → s.markAt index place = some .unset
  /-- A true literal is marked so if its clause was still active when its variable, the one with
  index `i` on the trail, was assigned. -/
  mark_of_true : ∀ (index : Nat) clause (place : Nat) l (i : Nat) frame,
    F.clauses[index]? = some clause → clause[place]? = some l →
    s.order[i]? = some l.natAbs → s.frames[i]? = some frame → index ∈ frame →
    s.IsTrue F l → s.markAt index place = some .satisfying
  /-- A false literal is marked so if its clause was still active when its variable was
  assigned. -/
  mark_of_false : ∀ (index : Nat) clause (place : Nat) l (i : Nat) frame,
    F.clauses[index]? = some clause → clause[place]? = some l →
    s.order[i]? = some l.natAbs → s.frames[i]? = some frame → index ∈ frame →
    s.IsFalse F l → s.markAt index place = some .falsified
  /-- A literal is unmarked if its clause had been satisfied before its variable was assigned. -/
  mark_of_dropped : ∀ (index : Nat) clause (place : Nat) l (i : Nat) frame,
    F.clauses[index]? = some clause → clause[place]? = some l →
    s.order[i]? = some l.natAbs → s.frames[i]? = some frame → index ∉ frame →
    s.markAt index place = some .unset

/-! ## Reading the state along an assignment -/

/-- The frame of the oldest assignments of a list has their number as its index. -/
theorem getElem?_frames_along (F : Formula) (later earlier : Assignment) :
    (along F (later ++ earlier)).frames[earlier.length]? = some (earlier.frame F) := by
  have hlength : earlier.length <
      (Assignment.frame F (later ++ earlier) ::
        Assignment.savedFrames F (later ++ earlier)).length := by
    rw [List.length_cons, Assignment.length_savedFrames, List.length_append]
    omega
  have hindex : (Assignment.frame F (later ++ earlier) ::
      Assignment.savedFrames F (later ++ earlier)).length - 1 - earlier.length =
        later.length := by
    rw [List.length_cons, Assignment.length_savedFrames, List.length_append]
    omega
  have hat := Assignment.getElem?_savedFrames F (a := later ++ earlier) (i := later.length)
    (by rw [List.length_append]; omega)
  rw [frames, along, List.getElem?_reverse hlength, hindex, hat, List.drop_left]

theorem length_frames_along (F : Formula) (a : Assignment) :
    (along F a).frames.length = a.length + 1 := by
  simp [frames, along]

theorem isTrue_along {F : Formula} {a : Assignment} (ha : a.Proper F) {l : Int} :
    (along F a).IsTrue F l ↔ a.holds l = true := by
  rw [IsTrue, value_along_eq_some ha, Assignment.holds_iff]

/-- The literals that the oldest assignments of a list make true. -/
theorem isTrue_along_append {F : Formula} {later earlier : Assignment}
    (ha : Assignment.Proper F (later ++ earlier)) {l : Int} :
    l.natAbs ∈ (along F (later ++ earlier)).order.take earlier.length ∧
        (along F (later ++ earlier)).IsTrue F l ↔ earlier.holds l = true := by
  have horder : (along F (later ++ earlier)).order.take earlier.length =
      (earlier.map Prod.fst).reverse := by
    rw [order, along, List.map_append, List.reverse_append]
    exact List.take_left' (by simp)
  rw [horder, List.mem_reverse, isTrue_along ha, Assignment.holds_iff, Assignment.holds_iff]
  constructor
  · rintro ⟨hmem, hvalue⟩
    rw [← ha.value?_append hmem, hvalue]
  · intro hvalue
    have hmem := Assignment.mem_of_value?_eq_some hvalue
    exact ⟨hmem, by rw [ha.value?_append hmem, hvalue]⟩

theorem markAt_along {F : Formula} {a : Assignment} {index place : Nat} {clause : List Int}
    {l : Int} (hclause : F.clauses[index]? = some clause) (hl : clause[place]? = some l) :
    (along F a).markAt index place = some (a.mark clause l) := by
  simp [markAt, along, hclause, Assignment.row, hl]

/-- The mark of an assigned literal, with the assignment cut where its variable stands. -/
theorem markAt_along_append {F : Formula} {later earlier : Assignment} {value : Bool}
    {index place : Nat} {clause : List Int} {l : Int}
    (ha : Assignment.Proper F (later ++ (l.natAbs, value) :: earlier))
    (hclause : F.clauses[index]? = some clause) (hl : clause[place]? = some l) :
    (along F (later ++ (l.natAbs, value) :: earlier)).markAt index place =
      some (if index ∈ earlier.frame F then
        if l = literalOf l.natAbs value then .satisfying else .falsified
      else .unset) := by
  rw [markAt_along hclause hl, Assignment.mark_append ha]
  have hmem := Assignment.mem_frame_of_getElem? hclause (a := earlier)
  cases hsatisfied : Assignment.satisfies earlier clause with
  | true => rw [if_pos rfl, if_neg (by simp [hmem, hsatisfied])]
  | false => rw [if_neg (by simp), if_pos (hmem.2 hsatisfied)]

/-! ## The layout -/

theorem frame_along {F : Formula} {a : Assignment} {i : Nat} {frame : List Nat}
    (hframe : (along F a).frames[i]? = some frame) :
    ∃ later earlier, a = later ++ earlier ∧ earlier.length = i ∧
      frame = Assignment.frame F earlier := by
  have hi : i < a.length + 1 := by
    rw [← length_frames_along F a]
    exact (List.getElem?_eq_some_iff.1 hframe).1
  have hlength : (a.drop (a.length - i)).length = i := by rw [List.length_drop]; omega
  have hat := getElem?_frames_along F (a.take (a.length - i)) (a.drop (a.length - i))
  rw [List.take_append_drop, hlength, hframe] at hat
  exact ⟨_, _, (List.take_append_drop ..).symm, hlength, Option.some.inj hat⟩

/-- The frame with the index of a variable on the trail is that of the assignments before it. -/
theorem frame_before_along {F : Formula} {a : Assignment} {i v : Nat} {frame : List Nat}
    (horder : (along F a).order[i]? = some v) (hframe : (along F a).frames[i]? = some frame) :
    ∃ later value earlier, a = later ++ (v, value) :: earlier ∧
      frame = Assignment.frame F earlier := by
  obtain ⟨later, value, earlier, rfl, rfl⟩ := Assignment.exists_append_of_getElem? horder
  -- the frame of the assignments before `v`, with `v` counted among the later ones
  have hat := getElem?_frames_along F (later ++ [(v, value)]) earlier
  rw [List.append_assoc, List.singleton_append, hframe] at hat
  exact ⟨later, value, earlier, rfl, Option.some.inj hat⟩

theorem mem_frame_along {F : Formula} {a : Assignment} (ha : a.Proper F) {i : Nat}
    {frame : List Nat} (hframe : (along F a).frames[i]? = some frame) (index : Nat) :
    index ∈ frame ↔ index < F.numClauses ∧
      ∀ l ∈ F.clause index, ¬(l.natAbs ∈ (along F a).order.take i ∧ (along F a).IsTrue F l) := by
  obtain ⟨later, earlier, rfl, rfl, rfl⟩ := frame_along hframe
  rw [Assignment.mem_frame]
  simp only [isTrue_along_append ha, Assignment.satisfies, List.any_eq_false]

theorem value_at_cut {F : Formula} {later earlier : Assignment} {v : Nat} {value : Bool}
    (ha : Assignment.Proper F (later ++ (v, value) :: earlier)) :
    Assignment.value? (later ++ (v, value) :: earlier) v = some value := by
  rw [ha.value?_append (by simp), Assignment.value?_cons_self]

/-- **Every reachable state has the layout that its trail and its values ask for.** -/
theorem layout_of_reachable {F : Formula} {s : State} (hs : Reachable F s) : Layout F s := by
  obtain ⟨a, ha, rfl⟩ := reachable_iff_along.1 hs
  constructor
  case length_values => simp [along]
  case nodup_trail => exact ha.nodup
  case mem_trail =>
    intro v
    simp only [value_along_eq_some ha]
    rw [← Option.ne_none_iff_exists', ne_eq, Assignment.value?_eq_none_iff, not_not]
    rfl
  case length_frames => rw [length_frames_along, along, List.length_map]
  case pairwise_frame =>
    intro frame hframe
    obtain ⟨i, hi⟩ := List.mem_iff_getElem?.1 hframe
    obtain ⟨later, earlier, -, -, rfl⟩ := frame_along hi
    exact Assignment.pairwise_frame F earlier
  case mem_frame =>
    intro i frame hframe index
    exact mem_frame_along ha hframe index
  case shape_marks => simp [along, Assignment.row, Function.comp_def]
  case mark_of_free =>
    intro index clause place l hclause hl hfree
    obtain ⟨-, hlow, hhigh⟩ := F.literalAt_inRange hclause hl
    rw [value_along hlow hhigh] at hfree
    rw [markAt_along hclause hl, Assignment.mark_of_free clause (Except.ok.inj hfree)]
  case mark_of_true =>
    intro index clause place l i frame hclause hl horder hframe hmem htrue
    obtain ⟨-, hlow, -⟩ := F.literalAt_inRange hclause hl
    obtain ⟨later, value, earlier, rfl, rfl⟩ := frame_before_along horder hframe
    rw [isTrue_along ha, Assignment.holds_iff, value_at_cut ha] at htrue
    have hliteral : l = literalOf l.natAbs value :=
      (Assignment.eq_literalOf_iff hlow).2 ⟨rfl, Option.some.inj htrue⟩
    rw [markAt_along_append ha hclause hl, if_pos hmem, if_pos hliteral]
  case mark_of_false =>
    intro index clause place l i frame hclause hl horder hframe hmem hfalse
    obtain ⟨hne, hlow, -⟩ := F.literalAt_inRange hclause hl
    obtain ⟨later, value, earlier, rfl, rfl⟩ := frame_before_along horder hframe
    rw [IsFalse, value_along_eq_some ha, value_at_cut ha] at hfalse
    have hliteral : l ≠ literalOf l.natAbs value := by
      intro heq
      have hsign := ((Assignment.eq_literalOf_iff hlow).1 heq).2
      rw [hsign, Option.some.injEq, decide_eq_decide] at hfalse
      omega
    rw [markAt_along_append ha hclause hl, if_pos hmem, if_neg hliteral]
  case mark_of_dropped =>
    intro index clause place l i frame hclause hl horder hframe hmem
    obtain ⟨later, value, earlier, rfl, rfl⟩ := frame_before_along horder hframe
    rw [markAt_along_append ha hclause hl, if_neg hmem]

/-- The true literal at the second place of the third clause is unmarked. -/
theorem layout_of_knotted : Reachable Formula.knot knotted ∧ Layout Formula.knot knotted ∧
    knotted.IsTrue Formula.knot (-3) ∧ knotted.markAt 2 1 = some .unset :=
  ⟨reachable_knotted, layout_of_reachable reachable_knotted, rfl, rfl⟩

end State

end TrailSat
