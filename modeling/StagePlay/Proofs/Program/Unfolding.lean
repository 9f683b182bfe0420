import StagePlay.Run.Chain

/-!
# Unfolding a program

What a chain carries out, said without any chain at work: a block, then its body as often as it
repeats it, then what follows from the block that comes next. An id without a block contributes
nothing, and a chain ends where there is no next block.

* `Program.Unfolds` is this as a relation, between a `Passage` of the program and the blocks that it
  stands for. A program may lead back to where it has been, and then a passage has no unfolding at
  all; where it has one it has no other (`Unfolds.unique`).
* `Program.Performs` reads the script of a chain in the same way, one task after the other. Each way
  in which a chain changes its script is undone by one of the lemmas about it, so that what the rest
  of a script performs tells what the whole of it does.
-/

namespace StagePlay

/-- **A passage of a program**, which stands for some blocks. These are what a chain may have before
it: a block, some visits, and the rounds of a body. -/
inductive Passage where
  /-- A block and all that follows from it. -/
  | chain (b : Block)
  /-- The chains of the blocks of some ids, in order. -/
  | visits (ids : List String)
  /-- Visits of the same ids, so many times. -/
  | rounds (ids : List String) (n : Nat)

/-- **The blocks that a passage stands for**, in order. Each rule is one way in which a chain goes
on; a passage that leads back to itself has no derivation of finite size, and so no unfolding. -/
inductive Program.Unfolds (p : Program) : Passage → List Block → Prop where
  /-- A block comes first, then the rounds of its body, and then the block that it names as next. -/
  | chain {b : Block} {body rest : List Block}
      (hbody : p.Unfolds (.rounds b.children b.rounds) body)
      (hrest : p.Unfolds (.visits b.next.toList) rest) :
      p.Unfolds (.chain b) (b :: (body ++ rest))
  /-- No ids stand for no blocks. -/
  | nobody : p.Unfolds (.visits []) []
  /-- An id without a block contributes nothing. -/
  | dangling {id : String} {ids : List String} {l : List Block} (hid : p.find? id = none)
      (hids : p.Unfolds (.visits ids) l) : p.Unfolds (.visits (id :: ids)) l
  /-- An id with a block stands for the chain of that block. -/
  | visit {id : String} {b : Block} {ids : List String} {l ls : List Block}
      (hid : p.find? id = some b) (hchain : p.Unfolds (.chain b) l)
      (hids : p.Unfolds (.visits ids) ls) : p.Unfolds (.visits (id :: ids)) (l ++ ls)
  /-- No rounds are left. -/
  | spent {ids : List String} : p.Unfolds (.rounds ids 0) []
  /-- One round, and then the rounds that are left. -/
  | round {ids : List String} {n : Nat} {l ls : List Block} (hround : p.Unfolds (.visits ids) l)
      (hrounds : p.Unfolds (.rounds ids n) ls) : p.Unfolds (.rounds ids (n + 1)) (l ++ ls)

namespace Program

variable {p : Program}

/-- **A passage stands for one list of blocks at most.** The rules do not overlap, so two unfoldings
of a passage are built in the same way. -/
theorem Unfolds.unique {q : Passage} {l l' : List Block} (h : p.Unfolds q l)
    (h' : p.Unfolds q l') : l = l' := by
  -- both are unfolded by the same rule, as an id either is found or is not
  induction h generalizing l' with
  | chain _ _ ihbody ihrest =>
    cases h' with
    | chain hbody' hrest' => rw [ihbody hbody', ihrest hrest']
  | nobody =>
    cases h'
    rfl
  | dangling hid _ ih =>
    cases h' with
    | dangling _ hids' => exact ih hids'
    | visit hid' _ _ => exact absurd (hid.symm.trans hid') (by simp)
  | visit hid _ _ ihchain ihids =>
    cases h' with
    | dangling hid' _ => exact absurd (hid'.symm.trans hid) (by simp)
    | visit hid' hchain' hids' =>
      obtain rfl := Option.some.inj (hid.symm.trans hid')
      rw [ihchain hchain', ihids hids']
  | spent =>
    cases h'
    rfl
  | round _ _ ihround ihrounds =>
    cases h' with
    | round hround' hrounds' => rw [ihround hround', ihrounds hrounds']

end Program

/-! ### Scripts -/

/-- The passage that a task stands for. -/
def Task.passage : Task → Passage
  | .enter b => .chain b
  | .visit id => .visits [id]
  | .rounds b left => .rounds b.children left

namespace Program

/-- **The blocks that a script stands for**, those of its first task first, and then those of the
rest. -/
def Performs (p : Program) : List Task → List Block → Prop
  | [], l => l = []
  | t :: ts, l => ∃ l₁ l₂, p.Unfolds t.passage l₁ ∧ p.Performs ts l₂ ∧ l = l₁ ++ l₂

variable {p : Program} {ts : List Task} {l : List Block}

theorem performs_nil : p.Performs [] [] := rfl

theorem Performs.cons {t : Task} {l₁ : List Block} (ht : p.Unfolds t.passage l₁)
    (hts : p.Performs ts l) : p.Performs (t :: ts) (l₁ ++ l) := ⟨l₁, l, ht, hts, rfl⟩

/-- Visits at the head of a script are one passage. A chain puts them there one by one, and the
unfolding of a body has them together. -/
theorem Performs.of_visits {ids : List String} :
    ∀ {l : List Block}, p.Performs (ids.map Task.visit ++ ts) l →
      ∃ l₁ l₂, p.Unfolds (.visits ids) l₁ ∧ p.Performs ts l₂ ∧ l = l₁ ++ l₂ := by
  induction ids with
  | nil => exact fun h => ⟨[], _, .nobody, h, rfl⟩
  | cons id ids ih =>
    rintro _ ⟨l₁, l₂, hvisit, hrest, rfl⟩
    obtain ⟨l₃, l₄, hids, hts, rfl⟩ := ih hrest
    refine ⟨l₁ ++ l₃, l₄, ?_, hts, (List.append_assoc _ _ _).symm⟩
    -- the visit of `id` alone, put in front of the others
    cases hvisit with
    | dangling hid hnobody =>
      cases hnobody
      exact .dangling hid hids
    | visit hid hchain hnobody =>
      cases hnobody
      rw [List.append_nil]
      exact .visit hid hchain hids

/-! Each step of a chain that changes its script, undone. -/

/-- Before a block was entered it stood in the script itself, and stands in front of what its rounds
and its next block unfold to. -/
theorem Performs.of_entered {b : Block}
    (h : p.Performs (.rounds b b.rounds :: (b.following ++ ts)) l) :
    p.Performs (.enter b :: ts) (b :: l) := by
  obtain ⟨body, _, hbody, hrest, rfl⟩ := h
  obtain ⟨next, l', hnext, hts, rfl⟩ := hrest.of_visits
  have hchain : p.Unfolds (.chain b) (b :: (body ++ next)) := .chain hbody hnext
  rw [← List.append_assoc, ← List.cons_append]
  exact hts.cons (t := .enter b) hchain

/-- An id that was not found stood for nothing. -/
theorem Performs.of_dangling {id : String} (hid : p.find? id = none) (h : p.Performs ts l) :
    p.Performs (.visit id :: ts) l :=
  h.cons (t := .visit id) (.dangling hid .nobody)

/-- An id that was found stood for the chain of its block. -/
theorem Performs.of_found {id : String} {b : Block} (hid : p.find? id = some b)
    (h : p.Performs (.enter b :: ts) l) : p.Performs (.visit id :: ts) l := by
  obtain ⟨l₁, l₂, hchain, hts, rfl⟩ := h
  have hvisit : p.Unfolds (.visits [id]) (l₁ ++ []) := .visit hid hchain .nobody
  rw [List.append_nil] at hvisit
  exact hts.cons (t := .visit id) hvisit

/-- Rounds that were over stood for nothing any more. -/
theorem Performs.of_spent {b : Block} (h : p.Performs ts l) :
    p.Performs (.rounds b 0 :: ts) l :=
  h.cons (t := .rounds b 0) .spent

/-- A round that was begun stood in front of the remaining ones. -/
theorem Performs.of_round {b : Block} {left : Nat}
    (h : p.Performs (b.children.map Task.visit ++ .rounds b left :: ts) l) :
    p.Performs (.rounds b (left + 1) :: ts) l := by
  obtain ⟨round, _, hround, ⟨rounds, l', hrounds, hts, rfl⟩, rfl⟩ := h.of_visits
  rw [← List.append_assoc]
  exact hts.cons (t := .rounds b (left + 1)) (.round hround hrounds)

end Program

end StagePlay
