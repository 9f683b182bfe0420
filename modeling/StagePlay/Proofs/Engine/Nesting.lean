import StagePlay.Proofs.Engine.Past
import StagePlay.Proofs.Program.Nesting
import StagePlay.Proofs.Run.Recast

/-!
# Nesting and runs

A chain comes upon a block either as its start block or by an id, and in neither case does it look at
the blocks declared inside it. So a run can be transferred to another program that finds the same
blocks: `Run.onto` is the run there, and `Engine.onto` an engine at it.

* `Run.step_onto` — a step there is the same step;
* `Engine.Performing.play_onto` — so are any turns, with stops in any place;
* `Engine.nesting_unseen` — a list of blocks and its flat list are performed alike.
-/

namespace StagePlay

/-! ### Chains -/

/-- A task without the blocks inside its block. -/
def Task.shallow : Task → Task
  | .enter b => .enter b.shallow
  | .visit id => .visit id
  | .rounds b left => .rounds b.shallow left

/-- A chain without the blocks inside those in its script. -/
def Chain.shallow (c : Chain) : Chain := { c with script := c.script.map Task.shallow }

/-- **A program that finds the same blocks**, which come without those inside them. The index of a
program holds its blocks in this form, so the clause `shallow` is no restriction. -/
structure Program.Agrees (p q : Program) : Prop where
  find?_eq : ∀ id, q.find? id = p.find? id
  shallow : ∀ {id b}, p.find? id = some b → b.shallow = b

/-- A list of blocks and its flat list make programs that agree, as they have one index. -/
theorem Program.agrees_flatten (bs : List Block) :
    (ofBlocks bs).Agrees (ofBlocks (flattenBlocks bs)) where
  find?_eq id := congrArg (List.lookup id) (index_flatten bs)
  shallow := shallow_of_find?

/-- A routine of the language looks at the arguments of its block, and at nothing inside it. One
case for each operation that has a routine. -/
theorem Operation.routine_shallow {o : Operation} {r : Routine} (h : o.routine? = some r)
    (cue : Cue) (b : Block) : r cue b.shallow = r cue b := by
  cases o <;> simp only [Operation.routine?, Option.some.injEq, reduceCtorEq] at h <;> subst h <;> rfl

/-- A run sees nothing of the blocks declared inside another one: not in its id, its operation, the
ids of its children and of its successor, its rounds, nor in what its routine does. -/
theorem Block.unseen_shallow : Block.Unseen Block.shallow where
  id_eq _ := rfl
  operation_eq _ := rfl
  children_eq _ := rfl
  next_eq _ := rfl
  rounds_eq _ := rfl
  routine_eq := Operation.routine_shallow

/-- A program that agrees with another one finds its blocks without those inside them. -/
theorem Program.Agrees.recasts {p q : Program} (h : p.Agrees q) : p.Recasts Block.shallow q := by
  intro id
  rw [h.find?_eq]
  cases hfind : p.find? id with
  | none => rfl
  | some b => rw [Option.map_some, h.shallow hfind]

theorem Task.shallow_eq_recast (t : Task) : t.shallow = t.recast Block.shallow := by
  cases t <;> rfl

theorem Chain.shallow_eq_recast (c : Chain) : c.shallow = c.recast Block.shallow := by
  unfold shallow recast
  rw [funext Task.shallow_eq_recast]

/-! ### Runs -/

/-- A deed without the blocks inside its block. -/
def Deed.shallow (d : Deed) : Deed := { d with block := d.block.shallow }

namespace Run

/-- **A run on another program**, at the same place: its chains are in the same states, and stand
before the same blocks. -/
def onto (q : Program) (r : Run) : Run :=
  { r with score := { r.score with program := q }, chains := r.chains.map Chain.shallow }

variable (q : Program) (r : Run)

theorem onto_eq_recast : r.onto q = r.recast Block.shallow q := by
  unfold onto recast
  rw [funext Chain.shallow_eq_recast]

theorem result?_onto (off : Bool) : (r.onto q).result? off = r.result? off := by
  rw [onto_eq_recast, result?_recast]

theorem deed?_onto (off : Bool) (i : Nat) :
    (r.onto q).deed? off i = (r.deed? off i).map Deed.shallow := by
  unfold deed?
  rw [onto_eq_recast, mayAct_recast, getElem?_recast]
  cases r.chains[i]? with
  | none => rfl
  | some c =>
    dsimp only [Option.map_some]
    rw [Chain.entering?_recast]
    cases r.mayAct i <;> cases c.entering? off <;> rfl

/-- **A step on the other program** is the same step. This is the case of `step_recast` in which
blocks lose what is declared inside them. -/
theorem step_onto {q : Program} {r : Run} (hpart : r.score.repertoire.IsPartOf .builtin)
    (hq : r.score.program.Agrees q) (off : Bool) (s : Stage) (i : Nat) :
    (r.onto q).step off s i = ((r.step off s i).1.onto q, (r.step off s i).2) := by
  rw [onto_eq_recast, onto_eq_recast, step_recast Block.unseen_shallow hpart hq.recasts]

/-- The run begins alike on both programs. -/
theorem onto_ofScore {q : Program} (score : Score)
    (hstarts : q.starts = score.program.starts.map Block.shallow) (number : Nat)
    (scheduling : Scheduling) (s : Stage) (clock : Nat) :
    ofScore number { score with program := q } scheduling s clock =
      (ofScore number score scheduling s clock).onto q := by
  rw [onto_eq_recast, recast_ofScore score hstarts fun _ => rfl]

end Run

/-! ### Engines -/

namespace Engine

/-- **An engine with its run on another program.** -/
def onto (q : Program) (e : Engine) : Engine := { e with run? := e.run?.map (Run.onto q) }

namespace Performing

variable {q : Program} {e : Engine} {r : Run}

theorem onto (h : e.Performing r) : (e.onto q).Performing (r.onto q) where
  run_eq := by
    unfold Engine.onto
    rw [h.run_eq]
    rfl
  held := h.held
  number_eq := h.number_eq

/-- A turn leaves a run at its score. -/
theorem next_score (h : e.Performing r) (t : Turn) :
    ∃ r', (e.turn t).1.Performing r' ∧ r'.score = r.score := by
  have hkept : Run.Account fun r' _ _ _ _ => r'.score = r.score :=
    ⟨fun i hr => (Run.score_step _ _ _ i).trans hr, fun hr => hr⟩
  exact h.turn hkept t [] [] rfl

section Play

variable (hpart : r.score.repertoire.IsPartOf .builtin) (hq : r.score.program.Agrees q)

include hpart hq

/-- **A turn on the other program** is the same turn: it leads to corresponding engines, sends the
same signals and carries out the same block. -/
theorem turn_onto (h : e.Performing r) (t : Turn) :
    (e.onto q).turn t = ((e.turn t).1.onto q, (e.turn t).2) ∧
      (e.onto q).deed? t = (e.deed? t).map Deed.shallow := by
  cases t with
  | chain i =>
    constructor
    · have hstep := Run.step_onto hpart hq e.guard.calledOff e.stage.stage i
      rw [turn_chain, turn_chain, h.onto.step_eq, h.step_eq]
      unfold Engine.onto
      dsimp only
      rw [hstep]
      rfl
    · unfold Engine.deed?
      dsimp only
      rw [h.onto.run_eq, h.run_eq, h.onto.isCalledOff_eq, h.isCalledOff_eq, Option.bind_some,
        Option.bind_some]
      exact r.deed?_onto q _ i
  | stop =>
    -- a stop and a request do not look at the program
    refine ⟨?_, rfl⟩
    rw [turn_stop, turn_stop, h.onto.stop_eq, h.stop_eq]
    rfl
  | ask p clock =>
    refine ⟨?_, rfl⟩
    rw [turn_ask, turn_ask, h.onto.start_eq, h.start_eq]

/-- Any turns on the other program are the same turns. The induction is on the turns; the program of
the run does not change meanwhile (`next_score`). -/
theorem play_onto (h : e.Performing r) (turns : List Turn) :
    (e.onto q).play turns = ⟨(e.play turns).engine.onto q, (e.play turns).signals,
      (e.play turns).deeds.map Deed.shallow⟩ := by
  induction turns generalizing e r with
  | nil => rfl
  | cons t turns ih =>
    obtain ⟨hturn, hdeed⟩ := h.turn_onto hpart hq t
    obtain ⟨r', h', hscore⟩ := h.next_score t
    rw [← hscore] at hpart hq
    have hrest := ih hpart hq h'
    rw [play_cons, play_cons, hturn, hdeed, hrest, List.map_append]
    cases e.deed? t <;> rfl

end Play

/-- The end of a run is the same on the other program, as it depends on how the chains have ended.
-/
theorem conclude_onto (h : e.Performing r) : (e.onto q).conclude.2 = e.conclude.2 ∧
    (e.onto q).conclude.1.stage = e.conclude.1.stage := by
  unfold conclude
  rw [h.onto.run_eq, h.run_eq, h.onto.isCalledOff_eq, h.isCalledOff_eq]
  dsimp only
  rw [Run.result?_onto]
  have hguard : (e.onto q).guard = e.guard := rfl
  rw [hguard]
  cases r.result? e.guard.calledOff with
  | none => exact ⟨rfl, rfl⟩
  | some result => cases result <;> exact ⟨rfl, rfl⟩

end Performing

/-- **A whole run on a program that finds the same blocks** and has the same start blocks. -/
theorem perform_onto {e : Engine} (hidle : e.guard.held = false)
    (hpart : e.repertoire.IsPartOf .builtin) {p q : Program} (hq : p.Agrees q)
    (hstarts : q.starts = p.starts.map Block.shallow) (actors : List Actor)
    (backdrop : Option Backdrop) (clock : Nat) (turns : List Turn) :
    let here := e.perform ⟨p, actors, backdrop⟩ clock turns
    let there := e.perform ⟨q, actors, backdrop⟩ clock turns
    there.signals = here.signals ∧ there.result? = here.result? ∧
      there.engine.stage = here.engine.stage ∧ there.deeds = here.deeds.map Deed.shallow := by
  intro here there
  -- with nothing to start, both set the stage and say so
  by_cases hnone : p.starts = []
  · have hnone' : q.starts = [] := by rw [hstarts, hnone, List.map_nil]
    unfold here there perform
    rw [start_of_idle_of_nothing hidle ⟨p, actors, backdrop⟩ clock hnone,
      start_of_idle_of_nothing hidle ⟨q, actors, backdrop⟩ clock hnone']
    exact ⟨rfl, rfl, rfl, rfl⟩
  have hsome : q.starts ≠ [] := by
    rw [hstarts]
    exact mt List.map_eq_nil_iff.mp hnone
  have hstart := start_of_idle hidle ⟨p, actors, backdrop⟩ clock hnone
  have hstart' := start_of_idle hidle ⟨q, actors, backdrop⟩ clock hsome
  have hbegun := performing_start hidle ⟨p, actors, backdrop⟩ clock hnone
  -- the run begins on the other program where this one begins
  have honto : (e.start ⟨q, actors, backdrop⟩ clock).1 =
      (e.start ⟨p, actors, backdrop⟩ clock).1.onto q := by
    have hrun := Run.onto_ofScore ⟨p, e.repertoire, e.interval⟩ hstarts
      (e.guard.number + 1) e.scheduling (.set actors backdrop) clock
    rw [hstart, hstart']
    unfold Engine.onto
    dsimp only
    rw [hrun]
    rfl
  have hfirst : (e.start ⟨q, actors, backdrop⟩ clock).2.1 =
      (e.start ⟨p, actors, backdrop⟩ clock).2.1 := by rw [hstart, hstart']
  have hplay := hbegun.play_onto hpart hq turns
  obtain ⟨r, hr⟩ := hbegun.exists_play turns
  obtain ⟨hlast, hstage⟩ := hr.conclude_onto (q := q)
  -- what is left is to put the beginning, the turns and the end together
  unfold here there
  rw [perform_of_idle hidle hsome, perform_of_idle hidle hnone, honto, hfirst, hplay]
  dsimp only
  rw [hlast]
  exact ⟨rfl, rfl, hstage, rfl⟩

/-- **Nesting is only a way of declaring blocks.** Let no block that is declared inside another one be
a start block. Then the blocks and the flat list of them make the same index, and have the same start
blocks but for what is declared inside of them; and turn for turn, with stops in any place, two idle
engines of one making tell the same of either, but for the number of the run, and carry out the same
blocks. One after the other, so do any turns that see both runs to their ends without calling them
off. -/
theorem nesting_unseen {e e' : Engine} (hidle : e.guard.held = false)
    (hidle' : e'.guard.held = false) (hpart : e.repertoire.IsPartOf .builtin)
    (hrepertoire : e.repertoire = e'.repertoire) (hinterval : e.interval = e'.interval)
    (hscheduling : e.scheduling = e'.scheduling) {bs : List Block}
    (hinner : ∀ b ∈ bs, ∀ d : Block, d.Inside b → d.operation ≠ .start) (actors : List Actor)
    (backdrop : Option Backdrop) (clock clock' : Nat) :
    let nested := Program.ofBlocks bs
    let flat := Program.ofBlocks (flattenBlocks bs)
    let here := e.perform ⟨nested, actors, backdrop⟩ clock
    let there := e'.perform ⟨flat, actors, backdrop⟩ clock'
    flat.index = nested.index ∧ flat.size = nested.size ∧
    flat.starts = nested.starts.map Block.shallow ∧
    (∀ turns, (here turns).Retells (e.guard.number + 1) (there turns) ∧
      (here turns).deeds.map Deed.shallow = (there turns).deeds) ∧
    (e.scheduling = .sequential → ∀ turns turns', .stop ∉ turns → .stop ∉ turns' →
      (here turns).result?.isSome → (there turns').result?.isSome →
      (here turns).Retells (e.guard.number + 1) (there turns')) := by
  intro nested flat here there
  have hindex : flat.index = nested.index := Program.index_flatten bs
  have hstarts : flat.starts = nested.starts.map Block.shallow := Program.starts_flatten hinner
  -- first from one program to the other, then from one engine to the other
  have hturn : ∀ turns, (here turns).Retells (e.guard.number + 1) (there turns) := by
    intro turns
    obtain ⟨hsignals, hresult, hstage, -⟩ := perform_onto hidle hpart (Program.agrees_flatten bs)
      hstarts actors backdrop clock turns
    obtain ⟨hsignals', hresult', hstage'⟩ := perform_retells hidle hidle' hrepertoire hinterval
      hscheduling ⟨flat, actors, backdrop⟩ clock clock' turns
    exact ⟨hsignals.symm.trans hsignals', hresult.symm.trans hresult',
      (congrArg PublicStage.stage hstage).symm.trans hstage'⟩
  -- the same blocks are carried out, and one after the other it does not matter which turns there
  -- are
  refine ⟨hindex, congrArg List.length hindex, hstarts, fun turns => ⟨hturn turns, ?_⟩, ?_⟩
  · obtain ⟨-, -, -, hdeeds⟩ := perform_onto hidle hpart (Program.agrees_flatten bs) hstarts actors
      backdrop clock turns
    exact hdeeds.symm.trans (deeds_perform_eq hidle hidle' hrepertoire hinterval hscheduling
      ⟨flat, actors, backdrop⟩ clock clock' turns)
  · intro hsequential turns turns' hturns hturns' hover hover'
    rw [← (hturn turns').result?_eq] at hover'
    exact (perform_unique hidle hsequential _ clock hturns hturns' hover hover').trans (hturn turns')

/-- Blocks in three layers. The innermost one has the id of a block outside of it that comes first, and
the last one at the top has that of an inner block. -/
def sampleNested : List Block :=
  [⟨"cat", .start, .empty, [], some "twice",
      [⟨"twice", .repeatCount, .insert .empty "times" (.number 2.0), ["rise"], some "nod",
        [⟨"rise", .moveUp, .empty, [], none, []⟩, ⟨"twice", .moveDown, .empty, [], none, []⟩]⟩]⟩,
    ⟨"nod", .custom "nod", .empty, [], none, []⟩,
    ⟨"rise", .moveLeft, .empty, [], none, []⟩]

theorem sampleNested_unseen :
    let e := (sample .sequential).after samplePast
    let turns := List.replicate 14 (.chain 0) ++ [.stop, .chain 0]
    let here := e.perform ⟨.ofBlocks sampleNested, [⟨"Cat", "Cat", "cat.png"⟩], none⟩ 7 turns
    let there := (sample .sequential).perform
      ⟨.ofBlocks (flattenBlocks sampleNested), [⟨"Cat", "Cat", "cat.png"⟩], none⟩ 0 turns
    (flattenBlocks sampleNested).length = 6 ∧ (Program.ofBlocks sampleNested).size = 4 ∧
      here.result? = some (.report ⟨.stopped, 4⟩) ∧ here.Retells 4 there := by
  intro e turns here there
  have hidle : e.guard = ⟨false, 3, false⟩ := by decide +kernel
  have hnone : ∀ b ∈ sampleNested, ∀ c ∈ flattenBlocks b.blocks, c.operation ≠ .start := by
    decide +kernel
  -- no start block inside another one, checked on the flat list of what is inside
  have hinner : ∀ b ∈ sampleNested, ∀ d : Block, d.Inside b → d.operation ≠ .start := by
    intro b hb d hd
    obtain ⟨c, hc, hdc⟩ := Block.inside_iff.mp hd
    exact hnone b hb d.shallow ((mem_flattenBlocks _ _).mpr ⟨c, hc, d, hdc, rfl⟩)
  have hfree : e.guard.held = false := by rw [hidle]
  have hsame := @nesting_unseen e (sample .sequential) hfree rfl (.refl _) rfl rfl rfl _ hinner
    [⟨"Cat", "Cat", "cat.png"⟩] none 7 0
  obtain ⟨-, -, -, hturn, -⟩ := hsame
  have hretells := (hturn turns).1
  rw [hidle] at hretells
  exact ⟨by decide +kernel, by decide +kernel, by decide +kernel, hretells⟩

end Engine

end StagePlay
