import StagePlay.Proofs.Run.Outline

/-!
# What a run sees of its blocks

A run sees the operation of a block, what follows from it and how often, and what its routine answers.
So blocks can be exchanged for others of which it sees the same (`Block.Unseen`): a run whose blocks
are exchanged (`Run.recast`), on a program that finds the exchanged blocks (`Program.Recasts`), takes
the same steps, with the exchanged blocks still to be carried out.

* `Chain.step_recast` — a step of a chain;
* `Run.step_recast`, `Run.result?_recast` — a step of a run, and its end.
-/

namespace StagePlay

/-- **An exchange of blocks of which a run sees nothing**, if its routines are those of the
language. What a run looks at are the fields named here, and a routine of the language looks at no
more than its answer shows. -/
structure Block.Unseen (f : Block → Block) : Prop where
  id_eq : ∀ b, (f b).id = b.id
  operation_eq : ∀ b, (f b).operation = b.operation
  children_eq : ∀ b, (f b).children = b.children
  next_eq : ∀ b, (f b).next = b.next
  rounds_eq : ∀ b, (f b).rounds = b.rounds
  routine_eq : ∀ {o : Operation} {r : Routine}, o.routine? = some r → ∀ cue b, r cue (f b) = r cue b

/-- A program that finds the exchanged blocks: under each id the block of the other program,
exchanged, or none in both. -/
def Program.Recasts (f : Block → Block) (p q : Program) : Prop :=
  ∀ id, q.find? id = (p.find? id).map f

/-- A task with its block exchanged. A task that only names a block is left as it is, as the id
still finds the right one. -/
def Task.recast (f : Block → Block) : Task → Task
  | .enter b => .enter (f b)
  | .visit id => .visit id
  | .rounds b left => .rounds (f b) left

/-- A chain with the blocks of its script exchanged. -/
def Chain.recast (f : Block → Block) (c : Chain) : Chain :=
  { c with script := c.script.map (Task.recast f) }

section Unseen

variable {f : Block → Block} (hf : Block.Unseen f)

include hf

/-- A routine of the language answers the same for the exchanged block, and where there is no
routine, this is so for both. -/
theorem Repertoire.IsPartOf.act_recast {rep : Repertoire} (hpart : rep.IsPartOf .builtin)
    (cue : Cue) (b : Block) : rep.act cue (f b) = rep.act cue b := by
  unfold act
  rw [hf.operation_eq]
  cases hfind : rep.find? b.operation.tag with
  | none => rfl
  | some routine =>
    have hroutine := hpart _ _ hfind
    rw [find?_builtin] at hroutine
    exact hf.routine_eq hroutine cue b

theorem Scene.performAll_recast (s : Scene) (owner : Option String) (b : Block) (es : List Effect) :
    s.performAll owner (f b) es = s.performAll owner b es := by
  induction es generalizing s with
  | nil => rfl
  | cons e es ih =>
    have hperform : s.perform owner (f b) e = s.perform owner b e := by
      cases e <;> simp only [perform, hf.id_eq]
    simp only [performAll, hperform, ih]

/-- What follows a block is named by ids, and they are the same. -/
theorem Block.following_recast (b : Block) :
    (f b).following = b.following.map (Task.recast f) := by
  unfold following
  rw [hf.next_eq, List.map_map]
  rfl

end Unseen

/-! ### Chains -/

namespace Chain

section Recast

variable (f : Block → Block)

theorem recast_lapse (c : Chain) (interval : Duration) (ts : List Task) (l : Lapse) :
    (c.recast f).lapse interval (ts.map (Task.recast f)) l = (c.lapse interval ts l).recast f := by
  cases l <;> rfl

theorem ending?_recast (c : Chain) : (c.recast f).ending? = c.ending? := rfl

/-- What a chain carries out next, exchanged, and just when it carried out something. -/
theorem entering?_recast (c : Chain) (off : Bool) :
    (c.recast f).entering? off = (c.entering? off).map f := by
  obtain ⟨owner, clock, script, state⟩ := c
  cases state with
  | resting | ended => rfl
  | walking =>
    cases script with
    | nil => rfl
    | cons t ts => cases t <;> cases off <;> rfl

end Recast

section Step

variable {f : Block → Block} {score : Score} {q : Program}

theorem enter_recast (hf : Block.Unseen f) (hpart : score.repertoire.IsPartOf .builtin) (c : Chain)
    (scene : Scene) (b : Block) (ts : List Task) :
    (c.recast f).enter { score with program := q } scene (f b) (ts.map (Task.recast f)) =
      ((c.enter score scene b ts).1.recast f, (c.enter score scene b ts).2) := by
  have hact : (c.recast f).actOf { score with program := q } scene (f b) = c.actOf score scene b :=
    hpart.act_recast hf _ b
  have hscript : .rounds (f b) (f b).rounds :: ((f b).following ++ ts.map (Task.recast f)) =
      (Task.rounds b b.rounds :: (b.following ++ ts)).map (Task.recast f) := by
    rw [List.map_cons, List.map_append, Block.following_recast hf, hf.rounds_eq]
    rfl
  -- the chain's new script has the exchanged blocks in it; what is done to the stage is the same
  refine Prod.ext ?_ ?_
  · rw [enter_chain, enter_chain, hact, hscript]
    exact c.recast_lapse f _ _ _
  · rw [enter_snd, enter_snd, hact]
    exact Scene.performAll_recast hf _ c.owner b _

/-- **A chain sees nothing of the exchange**: on a program that finds the exchanged blocks it takes
the same step, in each of its states and for each kind of task. -/
theorem step_recast (hf : Block.Unseen f) (hpart : score.repertoire.IsPartOf .builtin)
    (hq : score.program.Recasts f q) (c : Chain) (scene : Scene) :
    (c.recast f).step { score with program := q } scene =
      ((c.step score scene).1.recast f, (c.step score scene).2) := by
  obtain ⟨owner, clock, script, state⟩ := c
  cases state with
  | ended how => rfl
  | resting rest =>
    unfold step
    cases scene.cancelled with
    | true => rfl
    | false => cases rest <;> rfl
  | walking =>
    cases script with
    | nil => rfl
    | cons t ts =>
      cases t with
      | enter b =>
        have henter := enter_recast (q := q) hf hpart ⟨owner, clock, .enter b :: ts, .walking⟩ scene b ts
        unfold step
        cases scene.cancelled with
        | true => rfl
        | false => exact henter
      | visit id =>
        -- the id is looked for in the other program, which finds the exchanged block
        simp only [step, recast, List.map_cons, Task.recast, hq id]
        cases score.program.find? id <;> rfl
      | rounds b left =>
        cases left with
        | zero => rfl
        | succ left =>
          -- another round of a body, whose ids are the same
          simp only [step, recast, List.map_cons, Task.recast, hf.children_eq]
          cases scene.cancelled with
          | true => rfl
          | false =>
            simp only [Bool.false_eq_true, if_false, List.map_append, List.map_map, List.map_cons]
            rfl

end Step

end Chain

/-! ### Runs -/

namespace Run

/-- **A run with its blocks exchanged**, on another program. -/
def recast (f : Block → Block) (q : Program) (r : Run) : Run :=
  { r with score := { r.score with program := q }, chains := r.chains.map (Chain.recast f) }

section Recast

variable (f : Block → Block) (q : Program) (r : Run)

theorem getElem?_recast (i : Nat) : (r.recast f q).chains[i]? = r.chains[i]?.map (Chain.recast f) :=
  List.getElem?_map

theorem mayAct_recast (i : Nat) : (r.recast f q).mayAct i = r.mayAct i := by
  unfold mayAct recast
  dsimp only
  rw [← List.map_take, List.all_map]
  rfl

/-- A chain is put back among the exchanged ones as it is among the others, and the clock is handed
over just the same. -/
theorem put_recast (i : Nat) (c : Chain) :
    (r.recast f q).put i (c.recast f) = (r.put i c).map (Chain.recast f) := by
  unfold put recast
  dsimp only
  rw [← List.map_set, Chain.ending?_recast]
  split
  · refine List.ext_getElem? fun j => ?_
    rw [List.getElem?_modify, List.getElem?_map, List.getElem?_map, List.getElem?_modify]
    cases (r.chains.set i c)[j]? with
    | none => rfl
    | some d => by_cases hj : i + 1 = j <;> simp [hj, Chain.recast]
  · rfl

/-- A run ends as it would have, since how its chains ended was not exchanged. -/
theorem result?_recast (off : Bool) : (r.recast f q).result? off = r.result? off := by
  -- the first chain that is not completed is the same one
  have hfind : (r.recast f q).chains.find? (fun c => c.ending? ≠ some .completed) =
      (r.chains.find? fun c => c.ending? ≠ some .completed).map (Chain.recast f) := List.find?_map
  cases hscheduling : r.scheduling with
  | concurrent =>
    have hscheduling' : (r.recast f q).scheduling = .concurrent := hscheduling
    unfold result?
    rw [hscheduling, hscheduling']
    unfold recast
    dsimp only
    rw [List.all_map, List.all_map]
    rfl
  | sequential =>
    have hscheduling' : (r.recast f q).scheduling = .sequential := hscheduling
    unfold result?
    rw [hscheduling, hscheduling', hfind]
    cases r.chains.find? fun c => c.ending? ≠ some .completed <;> rfl

end Recast

/-- **A step with the blocks exchanged** is the same step, and leaves the exchanged run behind where
the other one would be. -/
theorem step_recast {f : Block → Block} {q : Program} {r : Run} (hf : Block.Unseen f)
    (hpart : r.score.repertoire.IsPartOf .builtin) (hq : r.score.program.Recasts f q) (off : Bool)
    (s : Stage) (i : Nat) :
    (r.recast f q).step off s i = ((r.step off s i).1.recast f q, (r.step off s i).2) := by
  unfold step
  rw [getElem?_recast, mayAct_recast]
  cases r.chains[i]? with
  | none => rfl
  | some c =>
    cases r.mayAct i with
    | false => rfl
    | true =>
      have hstep : (c.recast f).step (r.recast f q).score ⟨s, (r.recast f q).operations, off⟩ =
          ((c.step r.score ⟨s, r.operations, off⟩).1.recast f,
            (c.step r.score ⟨s, r.operations, off⟩).2) := Chain.step_recast hf hpart hq c _
      simp only [Option.map_some, if_true, hstep, put_recast]
      rfl

/-- A run begins alike if its start blocks are exchanged, and the owners of its chains with them. An
exchange may not touch the name of an actor, or another one would be moved. -/
theorem recast_ofScore {f : Block → Block} {q : Program} (score : Score)
    (hstarts : q.starts = score.program.starts.map f)
    (howner : ∀ b : Block, (f b).text? "actor" = b.text? "actor") (number : Nat)
    (scheduling : Scheduling) (s : Stage) (clock : Nat) :
    ofScore number { score with program := q } scheduling s clock =
      (ofScore number score scheduling s clock).recast f q := by
  have hbegins : ∀ b : Block, Chain.ofStart (ownerOf s (f b)) clock (f b) =
      (Chain.ofStart (ownerOf s b) clock b).recast f := by
    intro b
    unfold ownerOf
    rw [howner]
    rfl
  unfold ofScore recast
  dsimp only
  rw [hstarts, List.map_map, List.map_map]
  simp only [Function.comp_def, hbegins]

end Run

end StagePlay
